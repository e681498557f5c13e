import Gateway.Relay.Settlement
import Gateway.Usage.Billing

/-!
The relay for bodies that are forwarded as bytes.

The reservation, the charge and the row are those of the relay, but the flags
are its own: the reservation is given up before `finalizeQuota` is awaited, and
the row is written only when that call returns.
-/

namespace Gateway

structure PassthroughInput where
  model : String
  byteLength : Nat
  preConsumedQuota : Int
  quotaPerUnit : ℚ

def PassthroughInput.billedModel (input : PassthroughInput) : String :=
  billedModelFor input.model input.model

/-- How each step ends. `parsed` is the JSON body, if it could be read as one
that may be shown to the client. -/
structure PassthroughOutcomes where
  admission : Except Thrown Unit
  pricing : Except Thrown (ResolvedPricing × ℚ)
  reserve : Except Thrown Unit
  upstream : Except Thrown Unit
  body : Except Thrown Unit
  isJson : Bool
  parsed : Option Record
  finalize : Except Thrown Unit
  respond : Except Thrown Unit

/-- Size stands in for a token count that the provider never sent. -/
def inputEstimate (byteLength : Nat) : Nat := max 1 ((byteLength + 3) / 4)

/-- `{ ...EMPTY_USAGE, promptTokens: Math.min(estimate, 8192) }` -/
def estimatedUsage (byteLength : Nat) : NormalizedUsage :=
  { emptyUsage with promptTokens := min (inputEstimate byteLength) 8192 }

namespace Passthrough

/-- A JSON reply may carry real usage; anything else is charged by its size. -/
def usage (input : PassthroughInput) (o : PassthroughOutcomes) : NormalizedUsage :=
  let estimated := estimatedUsage input.byteLength
  if o.isJson then
    match o.parsed with
    | none => estimated
    | some parsed =>
        let reported := normalizeUsage (parsed.field "usage") (usageSemanticFor input.billedModel)
        if reported.promptTokens > 0 ∨ reported.completionTokens > 0 then reported else estimated
  else estimated

/-- From the body of the response to the end. -/
def answer (input : PassthroughInput) (o : PassthroughOutcomes) (pricing : ResolvedPricing)
    (groupRatio : ℚ) (r : RequestState) : Except Thrown Unit × RequestState :=
  let usage := usage input o
  let quota := (computeQuota input.quotaPerUnit usage pricing groupRatio input.billedModel).quota
  let r := { r with reserved := false }.emit (.finalizeQuota quota)
  match o.finalize with
  | .error e => (.error e, r)
  | .ok () =>
      let r := r.emit (.chargeTokenBudget usage.completionTokens)
      let r := (r.emit (.recordUsage quota .success)).releaseLease
      (o.respond, r)

/-- The body of the `try`. -/
def attempt (input : PassthroughInput) (o : PassthroughOutcomes) (r : RequestState) :
    Except Thrown Unit × RequestState :=
  match o.pricing with
  | .error e => (.error e, r)
  | .ok (pricing, groupRatio) =>
      let estimated := (computeQuota input.quotaPerUnit (estimatedUsage input.byteLength) pricing
        groupRatio input.billedModel).quota
      let r := r.emit (.reserveQuota (max input.preConsumedQuota estimated))
      match o.reserve with
      | .error e => (.error e, r)
      | .ok () =>
          let r := { r with reserved := true }
          match o.upstream with
          | .error e => (.error e, r)
          | .ok () =>
              match o.body with
              | .error e => (.error e, r)
              | .ok () => answer input o pricing groupRatio r

/-- The `catch`. -/
def fail (r : RequestState) : RequestState :=
  let r := if r.reserved then r.emit .releaseQuota else r
  (r.emit (.recordUsage 0 .error)).releaseLease

end Passthrough

def relayPassthrough (input : PassthroughInput) (o : PassthroughOutcomes) :
    Except GatewayError Unit × RequestState :=
  match o.admission with
  | .error e => (.error (gatewayErrorFrom e), .fresh)
  | .ok () =>
      match Passthrough.attempt input o .fresh with
      | (.ok (), r) => (.ok (), r)
      | (.error e, r) => (.error (gatewayErrorFrom e), Passthrough.fail r)

namespace PassthroughOutcomes

/-- The request reaches its reservation, which succeeds. -/
def reserves (o : PassthroughOutcomes) : Bool :=
  o.admission.isOk && o.pricing.isOk && o.reserve.isOk

/-- A channel answered, with a body that could be read. -/
def answered (o : PassthroughOutcomes) : Bool := o.upstream.isOk && o.body.isOk

end PassthroughOutcomes

namespace Passthrough

/-- The calls of a request after its reservation. -/
inductive Calls (quota : Int) : PassthroughOutcomes → List Effect → Prop
  | refunded {o : PassthroughOutcomes} (unanswered : o.answered = false) :
      Calls quota o [.releaseQuota, .recordUsage 0 .error, .leaseRelease]
  | unsettled {o : PassthroughOutcomes} {e : Thrown} (answered : o.answered = true)
      (thrown : o.finalize = .error e) :
      Calls quota o [.finalizeQuota quota, .recordUsage 0 .error, .leaseRelease]
  | charged {o : PassthroughOutcomes} (tokens : Nat) (later : List Effect)
      (answered : o.answered = true) (settled : o.finalize = .ok ())
      (rows : later = [] ∨ later = [.recordUsage 0 .error]) :
      Calls quota o ((⟨quota, tokens, .success⟩ : Bill).calls .releasing ++ later)

theorem relayPassthrough_calls (input : PassthroughInput) (o : PassthroughOutcomes)
    (reserved : o.reserves = true) :
    ∃ pricing groupRatio amount calls, o.pricing = .ok (pricing, groupRatio) ∧
      (relayPassthrough input o).2.effects = .reserveQuota amount :: calls ∧
        Calls (computeQuota input.quotaPerUnit (usage input o) pricing groupRatio
          input.billedModel).quota o calls := by
  obtain ⟨admission, pricing, reserve, upstream, body, isJson, parsed, finalize, respond⟩ := o
  simp only [PassthroughOutcomes.reserves, Bool.and_eq_true] at reserved
  obtain ⟨⟨admitted, priced⟩, held⟩ := reserved
  obtain ⟨_, rfl⟩ := exists_of_isOk admitted
  obtain ⟨⟨price, groupRatio⟩, rfl⟩ := exists_of_isOk priced
  obtain ⟨_, rfl⟩ := exists_of_isOk held
  refine ⟨price, groupRatio, ?_⟩
  cases upstream with
  | error e => exact ⟨_, _, rfl, rfl, .refunded rfl⟩
  | ok _ =>
      cases body with
      | error e => exact ⟨_, _, rfl, rfl, .refunded rfl⟩
      | ok _ =>
          cases finalize with
          | error e => exact ⟨_, _, rfl, rfl, .unsettled rfl rfl⟩
          | ok _ =>
              cases respond with
              | error e => exact ⟨_, _, rfl, rfl, .charged _ _ rfl rfl (.inr rfl)⟩
              | ok _ => exact ⟨_, _, rfl, rfl, .charged _ [] rfl rfl (.inl rfl)⟩

end Passthrough

end Gateway
