import Gateway.Routing.Retry
import Mathlib.Data.List.Basic

/-!
What a run of the retry loop can do.

A call is judged by the events before it: which channels were called, which
errors came back, which credentials failed. The loop keeps the same record in
its state, so what an iteration is permitted follows from the state it starts in.
-/

namespace Gateway

variable {α : Type*}

section Record

def RetryEvent.called : RetryEvent α → Option (AttemptContext × Except GatewayError α)
  | .call context outcome => some (context, outcome)
  | _ => none

/-- The calls of the callback, with how they ended. -/
def calls (events : List (RetryEvent α)) : List (AttemptContext × Except GatewayError α) :=
  events.filterMap RetryEvent.called

/-- The health outcomes that are recorded. -/
def RetryEvent.recorded : RetryEvent α → Option (String × Bool)
  | .health channelId ok _ => some (channelId, ok)
  | _ => none

def failedFingerprint : AttemptContext × Except GatewayError α → Option String
  | (context, .error _) => some context.key.fingerprint
  | (_, .ok _) => none

/-- The credentials that failed, by fingerprint. -/
def failedFingerprints (events : List (RetryEvent α)) : List String :=
  (calls events).filterMap failedFingerprint

/-- The error an iteration leaves in hand. -/
def RetryEvent.leavesError : RetryEvent α → Prop
  | .keyUnavailable _ _ => True
  | .call _ (.error _) => True
  | _ => False

/-- The outcome to record for a call; a client abort says nothing of the channel. -/
def outcomeOf : AttemptContext × Except GatewayError α → Option (String × Bool)
  | (context, .ok _) => some (context.channel.id, true)
  | (context, .error failure) =>
      if failure.status = 499 then none else some (context.channel.id, false)

@[simp]
theorem calls_nil : calls ([] : List (RetryEvent α)) = [] := rfl

@[simp]
theorem calls_append (events later : List (RetryEvent α)) :
    calls (events ++ later) = calls events ++ calls later := List.filterMap_append

@[simp]
theorem failedFingerprints_append (events later : List (RetryEvent α)) :
    failedFingerprints (events ++ later) =
      failedFingerprints events ++ failedFingerprints later := by
  simp only [failedFingerprints, calls_append, List.filterMap_append]

end Record

/-- What must hold when the callback is called after the events of `past`.
`offered` says which keys of a channel count as its enabled ones. -/
structure Permitted (offered : Collection ChannelKeyDoc → String → List ChannelKeyDoc)
    (rounds : Nat → Round α) (past : List (RetryEvent α)) (context : AttemptContext) : Prop where
  iteration : ∀ call ∈ calls past, call.1.attempt < context.attempt
  channel : ∀ call ∈ calls past, call.1.channel.id ≠ context.channel.id
  retryable : ∀ call ∈ calls past,
    ∃ failure, call.2 = .error failure ∧ shouldRetryError failure = true
  alive : (rounds context.attempt).aborted = false
  inTime : (rounds context.attempt).remainingAtStart = 0 → ∀ e ∈ past, ¬e.leavesError
  awake : .slept true ∉ past
  credential : context.key.fingerprint ∈ failedFingerprints past →
    ∃ keys, (rounds context.attempt).keys.keys = some keys ∧
      ∀ doc ∈ offered keys context.channel.id, doc.fingerprint ∈ failedFingerprints past

/-- Bounded retries: the number of calls, what each call needs, and one health
outcome for each call. -/
structure BoundedRetries (offered : Collection ChannelKeyDoc → String → List ChannelKeyDoc)
    (limit : Int) (rounds : Nat → Round α) (events : List (RetryEvent α)) : Prop where
  count : ((calls events).length : Int) ≤ limit
  permitted : ∀ past context outcome later,
    events = past ++ .call context outcome :: later → Permitted offered rounds past context
  recorded : events.filterMap RetryEvent.recorded = (calls events).filterMap outcomeOf

section Iteration

/-- An iteration gets as far as the callback. -/
structure Reached (request : RetryRequest) (i : Nat) (round : Round α) (s : RetryState)
    (context : AttemptContext) : Prop where
  attempt : context.attempt = i
  alive : round.aborted = false
  inTime : round.remainingAtStart = 0 → s.lastError = none
  selected : ∃ selection, selectChannel round.selection (selectionRequest request i s) =
    .ok selection ∧ selection.channel = context.channel
  picked : pickChannelKey round.keys context.channel.id s.triedKeys = .ok context.key

/-- What is recorded after a call, and where the loop goes from there. -/
structure Concluded (limit i : Nat) (s : RetryState) (context : AttemptContext)
    (outcome : Except GatewayError α) (after : List (RetryEvent α)) (step : RetryStep α) :
    Prop where
  quiet : calls after = []
  recorded : after.filterMap RetryEvent.recorded = (outcomeOf (context, outcome)).toList
  next : ∀ s', step = .next s' → ∃ failure, outcome = .error failure ∧
    shouldRetryError failure = true ∧ .slept true ∉ after ∧ i + 1 ≠ limit ∧
      s' = ⟨s.triedChannels ++ [context.channel.id], s.triedKeys ++ [context.key.fingerprint],
        some failure⟩

/-- Everything one iteration can do. -/
inductive Iterates (request : RetryRequest) (limit i : Nat) (round : Round α) (s : RetryState) :
    List (RetryEvent α) × RetryStep α → Prop
  | ended (result : Except Thrown (RelayOutcome α)) :
      Iterates request limit i round s ([], .stop result)
  | keyUnavailable {selection : Selection} {thrown : Thrown}
      (selected : selectChannel round.selection (selectionRequest request i s) = .ok selection)
      (failed : pickChannelKey round.keys selection.channel.id s.triedKeys = .error thrown) :
      Iterates request limit i round s
        ([.keyUnavailable selection.channel.id (gatewayErrorFrom thrown)],
          .next { s with
            triedChannels := s.triedChannels ++ [selection.channel.id]
            lastError := some (gatewayErrorFrom thrown) })
  | called {context : AttemptContext} {outcome : Except GatewayError α}
      {after : List (RetryEvent α)} {step : RetryStep α}
      (reached : Reached request i round s context)
      (concluded : Concluded limit i s context outcome after step) :
      Iterates request limit i round s (.call context outcome :: after, step)

theorem afterFailure_concluded (limit i : Nat) (round : Round α) (s : RetryState)
    (context : AttemptContext) (failure : GatewayError) :
    ∃ after step, afterFailure limit i round s context failure =
        (.call context (.error failure) :: after, step) ∧
      Concluded limit i s context (.error failure) after step := by
  generalize hblamed : (if failure.status = 499 then ([] : List (RetryEvent α))
    else [.health context.channel.id false
        (recordChannelOutcome round.autoDisableAfter round.health false),
      .keyFailed context.key.keyId]) = blamed
  have quiet : calls blamed = [] := by
    subst hblamed
    split <;> rfl
  have recorded : blamed.filterMap RetryEvent.recorded =
      (outcomeOf (α := α) (context, .error failure)).toList := by
    subst hblamed
    rw [outcomeOf]
    split <;> rfl
  have awake : .slept true ∉ blamed := by
    subst hblamed
    split <;> simp
  rw [afterFailure]
  simp only [hblamed]
  split
  · exact ⟨_, _, rfl, quiet, recorded, fun _ h => nomatch h⟩
  · next retry =>
      have retry : shouldRetryError failure = true := by simpa using retry
      split
      · exact ⟨_, _, rfl, quiet, recorded, fun _ h => nomatch h⟩
      · next more =>
          have more : i + 1 ≠ limit := fun h => more (.inl h)
          split
          · refine ⟨_, _, rfl, quiet, recorded, fun s' h => ?_⟩
            cases h
            exact ⟨failure, rfl, retry, awake, more, rfl⟩
          · split
            · exact ⟨_, _, rfl, by rw [calls_append, quiet]; rfl, by
                simp [recorded, RetryEvent.recorded], fun _ h => nomatch h⟩
            · refine ⟨_, _, rfl, by rw [calls_append, quiet]; rfl, by
                simp [recorded, RetryEvent.recorded], fun s' h => ?_⟩
              cases h
              exact ⟨failure, rfl, retry, by simp [awake], more, rfl⟩

theorem iterate_cases (request : RetryRequest) (limit i : Nat) (round : Round α)
    (s : RetryState) : Iterates request limit i round s (iterate request limit i round s) := by
  rw [iterate]
  split
  · exact .ended _
  · next alive =>
      have alive : round.aborted = false := by simpa using alive
      split
      · exact .ended _
      · next inTime =>
          have inTime : round.remainingAtStart = 0 → s.lastError = none := by
            intro expired
            simpa only [expired, if_true] using inTime
          split
          · exact .ended _
          · next selection selected =>
              split
              · next thrown failed => exact .keyUnavailable selected failed
              · next key picked =>
                  simp only
                  split
                  · next value answered =>
                      exact @Iterates.called α request limit i round s _ (.ok value) _ _
                        ⟨rfl, alive, inTime, ⟨selection, selected, rfl⟩, picked⟩
                        ⟨rfl, rfl, fun _ h => nomatch h⟩
                  · next thrown answered =>
                      obtain ⟨after, step, same, concluded⟩ := afterFailure_concluded limit i round s
                        ⟨i, selection.channel, selection.model, key, round.remainingAtCall⟩
                        (gatewayErrorFrom thrown)
                      rw [same]
                      exact .called ⟨rfl, alive, inTime, ⟨selection, selected, rfl⟩, picked⟩
                        concluded

end Iteration

section Run

/-- The state of the loop is a record of the events so far. -/
structure Remembers (i : Nat) (s : RetryState) (past : List (RetryEvent α)) : Prop where
  iteration : ∀ call ∈ calls past, call.1.attempt < i
  channel : ∀ call ∈ calls past, call.1.channel.id ∈ s.triedChannels
  retryable : ∀ call ∈ calls past,
    ∃ failure, call.2 = .error failure ∧ shouldRetryError failure = true
  keys : failedFingerprints past = s.triedKeys
  inHand : s.lastError = none → ∀ e ∈ past, ¬e.leavesError
  awake : .slept true ∉ past

theorem remembers_start : Remembers 0 ⟨[], [], none⟩ ([] : List (RetryEvent α)) :=
  ⟨by simp, by simp, by simp, rfl, by simp, by simp⟩

/-- A call that is reached in a state is permitted after the events it remembers. -/
theorem permitted_of_reached {request : RetryRequest} {i : Nat} {rounds : Nat → Round α}
    {s : RetryState} {past : List (RetryEvent α)} {context : AttemptContext}
    (remembers : Remembers i s past) (reached : Reached request i (rounds i) s context) :
    Permitted listChannelKeys rounds past context := by
  obtain ⟨rfl, alive, inTime, ⟨selection, selected, same⟩, picked⟩ := reached
  refine ⟨remembers.iteration, ?_, remembers.retryable, alive,
    fun expired => remembers.inHand (inTime expired), remembers.awake, ?_⟩
  · intro call hcall
    have untried := (selectChannel_spec selected).2.1
    rw [same] at untried
    exact fun h => untried (h ▸ remembers.channel call hcall)
  · rw [remembers.keys]
    exact all_skipped_of_pick picked

theorem remembers_keyUnavailable {i : Nat} {s : RetryState} {past : List (RetryEvent α)}
    (remembers : Remembers i s past) (channelId : String) (error : GatewayError) :
    Remembers (i + 1)
      { s with triedChannels := s.triedChannels ++ [channelId], lastError := some error }
      (past ++ [.keyUnavailable channelId error]) := by
  have quiet : calls [(.keyUnavailable channelId error : RetryEvent α)] = [] := rfl
  refine ⟨?_, ?_, ?_, ?_, (nomatch ·), by simp [remembers.awake]⟩
  · intro call hcall
    rw [calls_append, quiet, List.append_nil] at hcall
    exact Nat.lt_succ_of_lt (remembers.iteration call hcall)
  · intro call hcall
    rw [calls_append, quiet, List.append_nil] at hcall
    exact List.mem_append_left _ (remembers.channel call hcall)
  · intro call hcall
    rw [calls_append, quiet, List.append_nil] at hcall
    exact remembers.retryable call hcall
  · rw [failedFingerprints_append, remembers.keys]
    exact List.append_nil _

theorem remembers_called {request : RetryRequest} {limit i : Nat} {round : Round α}
    {s s' : RetryState} {past after : List (RetryEvent α)} {context : AttemptContext}
    {outcome : Except GatewayError α} (remembers : Remembers i s past)
    (reached : Reached request i round s context)
    (concluded : Concluded limit i s context outcome after (.next s')) :
    Remembers (i + 1) s' (past ++ .call context outcome :: after) := by
  obtain ⟨failure, rfl, retry, awake, -, rfl⟩ := concluded.next s' rfl
  have added : calls (.call context (.error failure) :: after) = [(context, .error failure)] := by
    change (context, .error failure) :: calls after = _
    rw [concluded.quiet]
  refine ⟨?_, ?_, ?_, ?_, (nomatch ·), by simp [remembers.awake, awake]⟩
  · intro call hcall
    rw [calls_append, added, List.mem_append, List.mem_singleton] at hcall
    rcases hcall with hcall | rfl
    · exact Nat.lt_succ_of_lt (remembers.iteration call hcall)
    · exact Nat.lt_succ_of_le (Nat.le_of_eq reached.attempt)
  · intro call hcall
    rw [calls_append, added, List.mem_append, List.mem_singleton] at hcall
    rcases hcall with hcall | rfl
    · exact List.mem_append_left _ (remembers.channel call hcall)
    · exact List.mem_append_right _ List.mem_cons_self
  · intro call hcall
    rw [calls_append, added, List.mem_append, List.mem_singleton] at hcall
    rcases hcall with hcall | rfl
    · exact remembers.retryable call hcall
    · exact ⟨failure, rfl, retry⟩
  · rw [failedFingerprints_append, remembers.keys, failedFingerprints, added]
    rfl

/-- What holds of every call of `events`, given the events before it. -/
def EachCall (P : List (RetryEvent α) → AttemptContext → Prop) :
    (past events : List (RetryEvent α)) → Prop
  | _, [] => True
  | past, e :: later =>
      (∀ context outcome, e = .call context outcome → P past context) ∧
        EachCall P (past ++ [e]) later

variable {P : List (RetryEvent α) → AttemptContext → Prop}

theorem eachCall_append {past events later : List (RetryEvent α)}
    (first : EachCall P past events) (second : EachCall P (past ++ events) later) :
    EachCall P past (events ++ later) := by
  induction events generalizing past with
  | nil => simpa using second
  | cons e events ih => exact ⟨first.1, ih first.2 (by simpa using second)⟩

theorem eachCall_quiet {past events : List (RetryEvent α)} (quiet : calls events = []) :
    EachCall P past events := by
  induction events generalizing past with
  | nil => trivial
  | cons e events ih =>
      cases e with
      | call context outcome => exact nomatch quiet
      | _ => exact ⟨fun _ _ h => (by cases h), ih quiet⟩

/-- A call with the events that follow it up to the next one. -/
theorem eachCall_single {past after : List (RetryEvent α)} {context : AttemptContext}
    {outcome : Except GatewayError α} (holds : P past context) (quiet : calls after = []) :
    EachCall P past (.call context outcome :: after) := by
  refine ⟨?_, eachCall_quiet quiet⟩
  intro context' outcome' same
  cases same
  exact holds

theorem eachCall_split {past events before later : List (RetryEvent α)}
    {context : AttemptContext} {outcome : Except GatewayError α}
    (each : EachCall P past events)
    (split : events = before ++ .call context outcome :: later) : P (past ++ before) context := by
  subst split
  induction before generalizing past with
  | nil => simpa using each.1 context outcome rfl
  | cons e before ih => simpa using ih each.2

/-- A run from a state that remembers the events before it. -/
theorem retryLoop_bounded (request : RetryRequest) (limit : Nat) (rounds : Nat → Round α)
    (fuel i : Nat) (s : RetryState) (past : List (RetryEvent α)) (remembers : Remembers i s past) :
    (calls (retryLoop request limit rounds fuel i s).1).length ≤ fuel ∧
      EachCall (Permitted listChannelKeys rounds) past (retryLoop request limit rounds fuel i s).1 ∧
      (retryLoop request limit rounds fuel i s).1.filterMap RetryEvent.recorded =
        (calls (retryLoop request limit rounds fuel i s).1).filterMap outcomeOf := by
  induction fuel generalizing i s past with
  | zero => exact ⟨Nat.le_refl 0, trivial, rfl⟩
  | succ fuel ih =>
      have cases := iterate_cases request limit i (rounds i) s
      rw [retryLoop]
      generalize iterate request limit i (rounds i) s = iteration at cases
      cases cases with
      | ended result => exact ⟨Nat.zero_le _, trivial, rfl⟩
      | keyUnavailable selected failed =>
          obtain ⟨count, permitted, recorded⟩ :=
            ih (i + 1) _ _ (remembers_keyUnavailable remembers _ _)
          exact ⟨Nat.le_succ_of_le count, ⟨fun _ _ h => (by cases h), permitted⟩, recorded⟩
      | @called context outcome after step reached concluded =>
          have permitted : EachCall (Permitted listChannelKeys rounds) past
              (.call context outcome :: after) :=
            eachCall_single (permitted_of_reached remembers reached) concluded.quiet
          have called : calls (.call context outcome :: after) = [(context, outcome)] := by
            change (context, outcome) :: calls after = _
            rw [concluded.quiet]
          have recorded : (.call context outcome :: after).filterMap RetryEvent.recorded =
              (calls (.call context outcome :: after)).filterMap outcomeOf := by
            rw [called, List.filterMap_cons_none rfl, concluded.recorded]
            cases h : outcomeOf (context, outcome) with
            | none => rw [List.filterMap_cons_none h]; rfl
            | some o => rw [List.filterMap_cons_some h]; rfl
          cases step with
          | stop result =>
              refine ⟨?_, permitted, recorded⟩
              rw [called]
              exact Nat.succ_le_succ (Nat.zero_le _)
          | next s' =>
              obtain ⟨count, rest, recordedRest⟩ :=
                ih (i + 1) s' _ (remembers_called remembers reached concluded)
              refine ⟨?_, eachCall_append permitted rest, ?_⟩
              · rw [calls_append, called, List.length_append]
                simp only [List.length_singleton]
                omega
              · rw [List.filterMap_append, calls_append, List.filterMap_append, recorded,
                  recordedRest]

end Run

/-- A run of the retry loop is bounded, with the credentials that are listed for
a channel as the ones it offers. -/
theorem withChannelRetry_bounded (retryTimes : Int) (request : RetryRequest)
    (rounds : Nat → Round α) :
    BoundedRetries listChannelKeys (attemptLimit retryTimes request) rounds
      (withChannelRetry retryTimes request rounds).1 := by
  obtain ⟨count, permitted, recorded⟩ := retryLoop_bounded request
    (attemptLimit retryTimes request).toNat rounds (attemptLimit retryTimes request).toNat 0
    ⟨[], [], none⟩ [] remembers_start
  refine ⟨?_, ?_, recorded⟩
  · have positive : 0 ≤ attemptLimit retryTimes request := by
      rw [attemptLimit]
      omega
    rw [← Int.toNat_of_nonneg positive]
    exact Int.ofNat_le.mpr count
  · intro past context outcome later split
    exact eachCall_split permitted split

section Crowded

def crowdedKey (channelId fingerprint : String) (index : Nat) : ChannelKeyDoc :=
  ⟨channelId ++ toString index, channelId, "", "", "", 1, fingerprint, .enabled, index⟩

/-- A second channel repeats the credential of the first one a hundred times
before a credential of its own. -/
def crowdedKeys : Collection ChannelKeyDoc :=
  ⟨crowdedKey "a" "shared" 0 ::
    ((List.range 100).map (crowdedKey "b" "shared") ++ [crowdedKey "b" "own" 100]),
    by decide +kernel⟩

def crowdedChannels : Collection ChannelDoc :=
  ⟨[⟨"a", .enabled, 1, 0, ["default"], ["gpt-4o"]⟩, ⟨"b", .enabled, 0, 0, ["default"], ["gpt-4o"]⟩],
    by decide⟩

/-- What an upstream that answers 500 is reported as. -/
def upstreamFailed : GatewayError :=
  ⟨.upstreamError, 500, "upstream returned HTTP 500", .apiError, none, true, some 500⟩

/-- The stores stay as they are, and every attempt fails upstream. -/
def steadyRound (channels : Collection ChannelDoc) (keys : Collection ChannelKeyDoc) : Round Unit where
  aborted := false
  remainingAtStart := 1000
  selection :=
    ⟨⟨none, none, some channels⟩, fun _ => false, none, fun _ => .ok channels, fun _ => 0,
      fun model _ => ⟨model, model⟩⟩
  keys := ⟨some keys, none, fun key => .ok key.cipher⟩
  remainingAtCall := 1000
  attempt := fun _ => .error (.gateway upstreamFailed)
  autoDisableAfter := 0
  health := ⟨none, none⟩
  remainingAfter := 1000
  backoffMs := 0
  remainingAtBackoff := 1000
  sleepAborted := false

def crowdedRequest : RetryRequest := ⟨"default", "gpt-4o", none, some 2⟩

def crowdedRounds : Nat → Round Unit := fun _ => steadyRound crowdedChannels crowdedKeys

/-- The first attempt, with what is recorded of it. -/
def crowdedPast : List (RetryEvent Unit) :=
  [.call ⟨0, ⟨"a", .enabled, 1, 0, ["default"], ["gpt-4o"]⟩, ⟨"gpt-4o", "gpt-4o"⟩,
      ⟨"a0", "", 0, "shared"⟩, 1000⟩ (.error upstreamFailed),
    .health "a" false ⟨false, 0, false⟩, .keyFailed "a0"]

/-- The second attempt, with the credential that failed. -/
def crowdedContext : AttemptContext :=
  ⟨1, ⟨"b", .enabled, 0, 0, ["default"], ["gpt-4o"]⟩, ⟨"gpt-4o", "gpt-4o"⟩,
    ⟨"b0", "", 0, "shared"⟩, 1000⟩

theorem crowded_run :
    (withChannelRetry 0 crowdedRequest crowdedRounds).1 =
      crowdedPast ++ .call crowdedContext (.error upstreamFailed) ::
        [.health "b" false ⟨false, 0, false⟩, .keyFailed "b0"] := by
  decide +kernel

/-- A failed credential is used again although the channel has another enabled
one, beyond the keys that are listed. -/
theorem failed_credential_reused :
    ¬BoundedRetries enabledKeys (attemptLimit 0 crowdedRequest) crowdedRounds
      (withChannelRetry 0 crowdedRequest crowdedRounds).1 := by
  intro bounded
  have permitted := bounded.permitted _ _ _ _ crowded_run
  obtain ⟨keys, stored, failed⟩ := permitted.credential (by decide +kernel)
  cases stored
  have offered : crowdedKey "b" "own" 100 ∈ enabledKeys crowdedKeys "b" := by decide +kernel
  exact absurd (failed _ offered) (by decide +kernel)

end Crowded

end Gateway
