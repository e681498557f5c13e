import Gateway.Routing.Select
import Gateway.Routing.Keys
import Gateway.Routing.Health

/-!
Retry across channels.

The loop is bounded by a number of attempts and by a deadline, a channel that
was tried is excluded, and an error ends the loop unless another channel could
do better. A run is told with the events it goes through: the calls, and what is
recorded for each of them.
-/

namespace Gateway

structure AttemptContext where
  attempt : Nat
  channel : ChannelDoc
  model : ResolvedModel
  key : SelectedKey
  remainingMs : Nat
deriving DecidableEq, Repr

structure RelayOutcome (α : Type*) where
  value : α
  attempts : Nat
  channelId : String
  model : ResolvedModel
deriving DecidableEq, Repr

structure RetryRequest where
  group : String
  model : String
  affinityHash : Option String
  maxAttempts : Option Int

/-- Whether another channel could plausibly do better. -/
def shouldRetryError (error : GatewayError) : Bool :=
  if error.code = .malformedUpstreamBody then false
  else if error.status = 499 then false
  else
    match error.upstreamStatus with
    | some status => isRetryableStatus status
    | none => error.retryable

/-- What one iteration meets: the signal, the readings of the clock, the stores,
and the callback. `autoDisableAfter` is the configured limit. -/
structure Round (α : Type*) where
  aborted : Bool
  remainingAtStart : Nat
  selection : SelectionStores
  keys : KeyStores
  remainingAtCall : Nat
  attempt : AttemptContext → Except Thrown α
  autoDisableAfter : Nat
  health : HealthStores
  remainingAfter : Nat
  backoffMs : Nat
  remainingAtBackoff : Nat
  sleepAborted : Bool

structure RetryState where
  triedChannels : List String
  triedKeys : List String
  lastError : Option GatewayError

inductive RetryEvent (α : Type*) where
  | keyUnavailable (channelId : String) (error : GatewayError)
  | call (context : AttemptContext) (outcome : Except GatewayError α)
  | health (channelId : String) (ok : Bool) (outcome : ChannelOutcome)
  | keyUsed (keyId : String)
  | keyFailed (keyId : String)
  | slept (aborted : Bool)
deriving DecidableEq

inductive RetryStep (α : Type*) where
  | next (s : RetryState)
  | stop (result : Except Thrown (RelayOutcome α))

variable {α : Type*}

/-- The `catch` of the callback. -/
def afterFailure (limit i : Nat) (round : Round α) (s : RetryState) (context : AttemptContext)
    (failure : GatewayError) : List (RetryEvent α) × RetryStep α :=
  let blamed :=
    if failure.status = 499 then []
    else [.health context.channel.id false
        (recordChannelOutcome round.autoDisableAfter round.health false),
      .keyFailed context.key.keyId]
  if !shouldRetryError failure then
    (.call context (.error failure) :: blamed, .stop (.error (.gateway failure)))
  else
    let next : RetryState := ⟨s.triedChannels ++ [context.channel.id],
      s.triedKeys ++ [context.key.fingerprint], some failure⟩
    if i + 1 = limit ∨ round.remainingAfter = 0 then
      (.call context (.error failure) :: blamed, .stop (.error (.gateway failure)))
    else if min round.backoffMs round.remainingAtBackoff = 0 then
      (.call context (.error failure) :: blamed, .next next)
    else if round.sleepAborted then
      (.call context (.error failure) :: (blamed ++ [.slept true]),
        .stop (.error (.gateway clientClosed)))
    else (.call context (.error failure) :: (blamed ++ [.slept false]), .next next)

def selectionRequest (request : RetryRequest) (i : Nat) (s : RetryState) : SelectionRequest :=
  ⟨request.group, request.model, i, request.affinityHash, s.triedChannels⟩

/-- The body of the loop. -/
def iterate (request : RetryRequest) (limit i : Nat) (round : Round α) (s : RetryState) :
    List (RetryEvent α) × RetryStep α :=
  if round.aborted then ([], .stop (.error (.gateway clientClosed)))
  else
    match (if round.remainingAtStart = 0 then s.lastError else none) with
    | some error => ([], .stop (.error (.gateway error)))
    | none =>
        match selectChannel round.selection (selectionRequest request i s) with
        | .error e => ([], .stop (.error e))
        | .ok selection =>
            match pickChannelKey round.keys selection.channel.id s.triedKeys with
            | .error e =>
                ([.keyUnavailable selection.channel.id (gatewayErrorFrom e)],
                  .next { s with
                    triedChannels := s.triedChannels ++ [selection.channel.id]
                    lastError := some (gatewayErrorFrom e) })
            | .ok key =>
                let context : AttemptContext :=
                  ⟨i, selection.channel, selection.model, key, round.remainingAtCall⟩
                match round.attempt context with
                | .ok value =>
                    ([.call context (.ok value),
                      .health context.channel.id true
                        (recordChannelOutcome round.autoDisableAfter round.health true),
                      .keyUsed key.keyId],
                      .stop (.ok ⟨value, i + 1, context.channel.id, context.model⟩))
                | .error thrown =>
                    afterFailure limit i round s context (gatewayErrorFrom thrown)

/-- The iterations from the i-th on; `fuel` of them are left. -/
def retryLoop (request : RetryRequest) (limit : Nat) (rounds : Nat → Round α) :
    (fuel i : Nat) → RetryState → List (RetryEvent α) × Except Thrown (RelayOutcome α)
  | 0, _, s => ([], .error (.gateway (s.lastError.getD (gatewayErrorFrom .fault))))
  | fuel + 1, i, s =>
      match iterate request limit i (rounds i) s with
      | (events, .stop result) => (events, result)
      | (events, .next s') =>
          let (later, result) := retryLoop request limit rounds fuel (i + 1) s'
          (events ++ later, result)

/-- `Math.max(1, request.maxAttempts ?? config.retryTimes + 1)` -/
def attemptLimit (retryTimes : Int) (request : RetryRequest) : Int :=
  max 1 (request.maxAttempts.getD (retryTimes + 1))

def withChannelRetry (retryTimes : Int) (request : RetryRequest) (rounds : Nat → Round α) :
    List (RetryEvent α) × Except Thrown (RelayOutcome α) :=
  let limit := (attemptLimit retryTimes request).toNat
  retryLoop request limit rounds limit 0 ⟨[], [], none⟩

end Gateway
