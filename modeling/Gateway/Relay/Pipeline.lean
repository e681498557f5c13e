import Gateway.Relay.Stream

/-!
The relay, from the admitted request to its response.

An outcome is given for every awaited step and for the conversions that can
throw; the relay is then a function of the outcomes. The model ends where the
response is returned: a streamed one goes on as a stream of its own.
-/

namespace Gateway

structure RelayInput where
  model : String
  stream : Bool
  clientDialect : Dialect
  requestId : String
  usageInjected : Bool
  promptEstimate : Nat
  completionEstimate : Nat
  preConsumedQuota : Int
  quotaPerUnit : ℚ
  created : Nat
  randomId : Nat → String
  stringify : Json → String

/-- The request is priced and reported under the model the client asked for. -/
def RelayInput.billedModel (input : RelayInput) : String := billedModelFor input.model input.model

/-- What a channel answered, once one did. -/
structure UpstreamResponse where
  wire : Dialect
  hasBody : Bool

/-- How each step ends. `parsed` is the body of a buffered response after the
bounded parse, if there is one. -/
structure RelayOutcomes where
  admission : Except Thrown Unit
  pricing : Except Thrown (ResolvedPricing × ℚ)
  tokenBudget : Except Thrown Unit
  reserve : Except Thrown Unit
  upstream : Except Thrown UpstreamResponse
  text : Except Thrown Unit
  parsed : Option Record
  transform : Except Thrown Unit
  finalize : Except Thrown Unit
  respond : Except Thrown Unit
  streamSetup : Except Thrown Unit

inductive RelayResult where
  | response
  | stream (ctx : StreamContext)
  | thrown (error : GatewayError)

namespace Relay

/-- An explicit release, on the paths that find the upstream body unusable. -/
def refund (r : RequestState) : RequestState :=
  { r.emit .releaseQuota with reserved := false }.releaseLease

def buffered (input : RelayInput) (o : RelayOutcomes) (pricing : ResolvedPricing)
    (groupRatio : ℚ) (wire : Dialect) (r : RequestState) :
    Except Thrown RelayResult × RequestState :=
  match o.text with
  | .error e => (.error e, r)
  | .ok () =>
      match o.parsed with
      | none =>
          (.error (.gateway (malformedUpstreamBody "upstream returned an unparseable body")),
            refund r)
      | some parsed =>
          match o.transform with
          | .error e => (.error e, r)
          | .ok () =>
              let usage := bufferedUsage wire parsed (usageSemanticFor input.billedModel)
              let quota := (computeQuota input.quotaPerUnit usage pricing groupRatio
                input.billedModel).quota
              match r.settle ⟨quota, usage.completionTokens, .success⟩ o.finalize with
              | (.error e, r) => (.error e, r)
              | (.ok (), r) =>
                  match o.respond with
                  | .error e => (.error e, { r with reserved := false })
                  | .ok () => (.ok .response, { r with reserved := false })

/-- From the last step on, the stream owns the reservation. -/
def streamed (input : RelayInput) (o : RelayOutcomes) (pricing : ResolvedPricing)
    (groupRatio : ℚ) (upstream : UpstreamResponse) (r : RequestState) :
    Except Thrown RelayResult × RequestState :=
  if upstream.hasBody then
    match o.streamSetup with
    | .error e => (.error e, r)
    | .ok () =>
        (.ok (.stream
          { wire := upstream.wire
            options := ⟨input.model, input.requestId, input.created, input.usageInjected,
              input.randomId, input.stringify⟩
            semantic := usageSemanticFor input.billedModel
            pricing := pricing
            groupRatio := groupRatio
            billedModel := input.billedModel
            quotaPerUnit := input.quotaPerUnit }), { r with reserved := false })
  else
    (.error (.gateway (malformedUpstreamBody "upstream returned no body for a streamed request")),
      refund r)

def estimatedQuota (input : RelayInput) (pricing : ResolvedPricing) (groupRatio : ℚ) : Int :=
  (computeQuota input.quotaPerUnit
    { emptyUsage with
      promptTokens := input.promptEstimate
      completionTokens := input.completionEstimate } pricing groupRatio input.billedModel).quota

/-- The body of the `try`. -/
def attempt (input : RelayInput) (o : RelayOutcomes) (r : RequestState) :
    Except Thrown RelayResult × RequestState :=
  match o.pricing with
  | .error e => (.error e, r)
  | .ok (pricing, groupRatio) =>
      match o.tokenBudget with
      | .error e => (.error e, r)
      | .ok () =>
          let amount := max input.preConsumedQuota (estimatedQuota input pricing groupRatio)
          let r := r.emit (.reserveQuota amount)
          match o.reserve with
          | .error e => (.error e, r)
          | .ok () =>
              let r := { r with reserved := true }
              match o.upstream with
              | .error e => (.error e, r)
              | .ok upstream =>
                  if input.stream then streamed input o pricing groupRatio upstream r
                  else buffered input o pricing groupRatio upstream.wire r

/-- The `catch`: a failed request gets a row of its own. -/
def fail (error : GatewayError) (r : RequestState) : RequestState :=
  let r := if r.reserved then r.emit .releaseQuota else r
  (r.emit (.recordUsage 0 (if error.status = 499 then .aborted else .error))).releaseLease

end Relay

def relay (input : RelayInput) (o : RelayOutcomes) : RelayResult × RequestState :=
  match o.admission with
  | .error e => (.thrown (gatewayErrorFrom e), .fresh)
  | .ok () =>
      match Relay.attempt input o .fresh with
      | (.ok result, r) => (result, r)
      | (.error e, r) => (.thrown (gatewayErrorFrom e), Relay.fail (gatewayErrorFrom e) r)

/-- The outcomes let the request reach its reservation, which succeeds. -/
def RelayOutcomes.reserves (o : RelayOutcomes) : Bool :=
  o.admission.isOk && o.pricing.isOk && o.tokenBudget.isOk && o.reserve.isOk

end Gateway
