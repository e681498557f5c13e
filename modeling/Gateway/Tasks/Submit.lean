import Gateway.Relay.Passthrough

/-!
Submitting an asynchronous job.

The job is charged by the size of its request, before the answer of the provider
is read. There is no lease, and everything from authentication to the
reservation is outside the `try` that settles.
-/

namespace Gateway

structure TaskSubmitInput where
  platform : String
  group : String
  byteLength : Nat
  maxChannels : Option Nat
  preConsumedQuota : Int
  quotaPerUnit : ℚ

/-- How a submission to one channel ends: a failure is told apart by whether the
job may have reached the provider. -/
inductive AttemptOutcome where
  | accepted
  | unsent (e : Thrown)
  | sent (e : Thrown)
deriving DecidableEq, Repr

/-- How each step ends. `channels` has an outcome for every candidate channel,
`parsed` says whether the answer is a JSON object, and `stored` is the end of
`markSubmitted`, or of `updateTask` when there is nothing to poll. -/
structure TaskSubmitOutcomes where
  admission : Except Thrown Unit
  pricing : Except Thrown (ResolvedPricing × ℚ)
  reserve : Except Thrown Unit
  channels : List AttemptOutcome
  finalize : Except Thrown Unit
  text : Except Thrown Unit
  parsed : Bool
  created : Except Thrown Unit
  stored : Except Thrown Unit
  respond : Except Thrown Unit

namespace TaskSubmit

/-- What the job costs, told from the request alone. -/
def jobQuota (input : TaskSubmitInput) (pricing : ResolvedPricing) (groupRatio : ℚ) : Int :=
  (computeQuota input.quotaPerUnit (estimatedUsage input.byteLength) pricing groupRatio
    (billedModelFor input.platform input.platform)).quota

/-- Creating a job is not idempotent: a failure after it was sent ends the
attempts. -/
def submitTo (lastError : Option Thrown) (noChannel : GatewayError) :
    List AttemptOutcome → Except Thrown Unit
  | [] => .error (lastError.getD (.gateway noChannel))
  | .accepted :: _ => .ok ()
  | .unsent e :: rest => submitTo (some e) noChannel rest
  | .sent e :: _ => .error e

/-- The channels that are tried: at least one of them, at most `maxChannels`. -/
def attempts (input : TaskSubmitInput) (o : TaskSubmitOutcomes) : List AttemptOutcome :=
  o.channels.take (max 1 (input.maxChannels.getD 3))

def upstream (input : TaskSubmitInput) (o : TaskSubmitOutcomes) : Except Thrown Unit :=
  submitTo none (noChannelAvailable input.platform input.group) (attempts input o)

/-- What follows the settlement, up to the row. -/
def store (o : TaskSubmitOutcomes) : Except Thrown Unit := do
  o.text
  if o.parsed then .ok ()
  else .error (.gateway (malformedUpstreamBody "upstream returned an unparseable body"))
  o.created
  o.stored

/-- The inner `try`. -/
def attempt (input : TaskSubmitInput) (o : TaskSubmitOutcomes) (quota : Int) (r : RequestState) :
    Except Thrown Unit × RequestState :=
  match upstream input o with
  | .error e => (.error e, r)
  | .ok () =>
      let r := { r with reserved := false }.emit (.finalizeQuota quota)
      match o.finalize with
      | .error e => (.error e, r)
      | .ok () =>
          match store o with
          | .error e => (.error e, r)
          | .ok () => (o.respond, r.emit (.recordUsage quota .success))

/-- The inner `catch`: the row of a job that was charged keeps its charge. -/
def fail (quota : Int) (r : RequestState) : RequestState :=
  (if r.reserved then r.emit .releaseQuota else r).emit
    (.recordUsage (if r.reserved then 0 else quota) .error)

/-- From the reservation to the end. -/
def submit (input : TaskSubmitInput) (o : TaskSubmitOutcomes) (quota : Int) (r : RequestState) :
    Except GatewayError Unit × RequestState :=
  match attempt input o quota { r with reserved := true } with
  | (.ok (), r) => (.ok (), r)
  | (.error e, r) => (.error (gatewayErrorFrom e), fail quota r)

end TaskSubmit

def handleTaskSubmit (input : TaskSubmitInput) (o : TaskSubmitOutcomes) :
    Except GatewayError Unit × RequestState :=
  match o.admission with
  | .error e => (.error (gatewayErrorFrom e), .fresh)
  | .ok () =>
      match o.pricing with
      | .error e => (.error (gatewayErrorFrom e), .fresh)
      | .ok (pricing, groupRatio) =>
          let quota := TaskSubmit.jobQuota input pricing groupRatio
          let r := RequestState.fresh.emit (.reserveQuota (max input.preConsumedQuota quota))
          match o.reserve with
          | .error e => (.error (gatewayErrorFrom e), r)
          | .ok () => TaskSubmit.submit input o quota r

/-- The request reaches its reservation, which succeeds. -/
def TaskSubmitOutcomes.reserves (o : TaskSubmitOutcomes) : Bool :=
  o.admission.isOk && o.pricing.isOk && o.reserve.isOk

namespace TaskSubmit

/-- The calls of a submission after its reservation: a release with a row of
nothing, or the charge with rows of the charge. -/
inductive Calls (quota : Int) : List Effect → Prop
  | refunded : Calls quota [.releaseQuota, .recordUsage 0 .error]
  | charged (status : UsageStatus) (later : List Effect)
      (rows : later = [] ∨ later = [.recordUsage quota .error]) :
      Calls quota (.finalizeQuota quota :: .recordUsage quota status :: later)

theorem submit_calls (input : TaskSubmitInput) (o : TaskSubmitOutcomes) (quota : Int)
    (base : List Effect) :
    ∃ calls, Calls quota calls ∧
      (submit input o quota ⟨false, false, false, base⟩).2.effects = base ++ calls := by
  unfold submit attempt
  cases upstream input o with
  | error e => exact ⟨_, .refunded, by simp [fail, RequestState.emit]⟩
  | ok _ =>
      cases o.finalize with
      | error e => exact ⟨_, .charged .error [] (.inl rfl), by simp [fail, RequestState.emit]⟩
      | ok _ =>
          cases store o with
          | error e => exact ⟨_, .charged .error [] (.inl rfl), by simp [fail, RequestState.emit]⟩
          | ok _ =>
              cases o.respond with
              | error e =>
                  exact ⟨_, .charged .success _ (.inr rfl), by simp [fail, RequestState.emit]⟩
              | ok _ => exact ⟨_, .charged .success [] (.inl rfl), by simp [RequestState.emit]⟩

theorem handleTaskSubmit_calls (input : TaskSubmitInput) (o : TaskSubmitOutcomes)
    (reserved : o.reserves = true) :
    ∃ quota amount calls, Calls quota calls ∧
      (handleTaskSubmit input o).2.effects = .reserveQuota amount :: calls := by
  simp only [TaskSubmitOutcomes.reserves, Bool.and_eq_true] at reserved
  obtain ⟨⟨admission, pricing⟩, reserve⟩ := reserved
  obtain ⟨_, admitted⟩ := exists_of_isOk admission
  obtain ⟨⟨price, groupRatio⟩, priced⟩ := exists_of_isOk pricing
  obtain ⟨_, held⟩ := exists_of_isOk reserve
  let quota := jobQuota input price groupRatio
  let amount := max input.preConsumedQuota quota
  obtain ⟨calls, ends, effects⟩ := submit_calls input o quota [.reserveQuota amount]
  refine ⟨quota, amount, calls, ends, ?_⟩
  simp only [handleTaskSubmit, admitted, priced, held]
  exact effects

end TaskSubmit

end Gateway
