import Gateway.Relay.Pipeline

/-!
The reservation and the lease of a relayed request, from end to end.

The function ends in one of five ways. A stream it hands over is open until one
of its flows begins the settlement, in settlement while that flow runs through
the calls, and then closed; the calls made so far are told by the stage.
-/

namespace Gateway

namespace Relay

/-- How the body of the `try` ends once the reservation is made, from the calls
made up to there. -/
inductive Ends (base : List Effect) : Except Thrown RelayResult × RequestState → Prop
  | held (e : Thrown) : Ends base (.error e, ⟨true, false, false, base⟩)
  | refunded (e : Thrown) :
      Ends base (.error e, ⟨false, false, true, base ++ [.releaseQuota, .leaseRelease]⟩)
  | settledThenThrown (e : Thrown) (bill : Bill) :
      Ends base (.error e, ⟨false, true, true, base ++ bill.calls .releasing⟩)
  | answered (bill : Bill) :
      Ends base (.ok .response, ⟨false, true, true, base ++ bill.calls .releasing⟩)
  | handedOver (ctx : StreamContext) :
      Ends base (.ok (.stream ctx), ⟨false, false, false, base⟩)

theorem refund_held (base : List Effect) :
    refund ⟨true, false, false, base⟩ =
      ⟨false, false, true, base ++ [.releaseQuota, .leaseRelease]⟩ := by
  simp [refund, RequestState.emit, RequestState.releaseLease]

section

variable (input : RelayInput) (o : RelayOutcomes) (pricing : ResolvedPricing) (groupRatio : ℚ)
  (base : List Effect)

theorem buffered_ends (wire : Dialect) :
    Ends base (buffered input o pricing groupRatio wire ⟨true, false, false, base⟩) := by
  rw [buffered]
  split
  · next e _ => exact .held e
  split
  · rw [refund_held]
    exact .refunded _
  split
  · next e _ => exact .held e
  simp only [settle_open _ o.finalize (r := ⟨true, false, false, base⟩) rfl rfl]
  cases o.finalize with
  | error e => exact .settledThenThrown e _
  | ok _ =>
      cases o.respond with
      | error e => exact .settledThenThrown e _
      | ok _ => exact .answered _

theorem streamed_ends (upstream : UpstreamResponse) :
    Ends base (streamed input o pricing groupRatio upstream ⟨true, false, false, base⟩) := by
  rw [streamed]
  split
  · split
    · next e _ => exact .held e
    · exact .handedOver _
  · rw [refund_held]
    exact .refunded _

end

/-- A reservation is made or not, and what follows it is one of the five ends. -/
theorem attempt_ends (input : RelayInput) (o : RelayOutcomes) (admitted : o.admission = .ok ()) :
    (o.reserves = false ∧ ∃ e effects, attempt input o .fresh = (.error e,
        ⟨false, false, false, effects⟩) ∧ settlements effects = [] ∧ leaseReleases effects = 0) ∨
      (o.reserves = true ∧ ∃ amount, Ends [.reserveQuota amount] (attempt input o .fresh)) := by
  unfold attempt RelayOutcomes.reserves
  rw [admitted]
  cases o.pricing with
  | error e => exact .inl ⟨rfl, e, [], rfl, rfl, rfl⟩
  | ok priced =>
      cases o.tokenBudget with
      | error e => exact .inl ⟨rfl, e, [], rfl, rfl, rfl⟩
      | ok _ =>
          cases o.reserve with
          | error e => exact .inl ⟨rfl, e, [.reserveQuota _], rfl, rfl, rfl⟩
          | ok _ =>
              refine .inr ⟨rfl, max input.preConsumedQuota
                (estimatedQuota input priced.1 priced.2), ?_⟩
              cases o.upstream with
              | error e => exact .held e
              | ok upstream =>
                  simp only
                  split
                  · exact streamed_ends input o priced.1 priced.2 _ upstream
                  · exact buffered_ends input o priced.1 priced.2 _ upstream.wire

end Relay

namespace StreamState

variable (ctx : StreamContext) (base : List Effect)

/-- The request while the settlement awaits a step. -/
def requestAt (bill : Bill) (step : SettleStep) : RequestState :=
  ⟨false, true, step == .releasing, base ++ bill.calls step⟩

/-- The owner of a settlement awaits the step, or has made the last call. -/
def Flow.Runs (bill : Bill) (step : SettleStep) (flow : Flow) : Prop :=
  (∃ failed, flow = .settling step bill failed) ∨ (flow = .ended ∧ step = .releasing)

/-- One flow stands at `flow`; the other one is not in the settlement. -/
def Owned (s : StreamState) (flow : Flow) : Prop :=
  (s.pull = flow ∧ (s.cancel = .waiting ∨ s.cancel = .ended)) ∨
    (s.cancelled = true ∧ s.cancel = flow ∧ (s.pull = .waiting ∨ s.pull = .reading))

/-- No settlement has begun. -/
structure Open (s : StreamState) : Prop where
  request : s.request = ⟨false, false, false, base⟩
  finished : s.finished = false
  cancelled : s.cancelled = false
  pull : s.pull = .waiting ∨ s.pull = .reading
  cancel : s.cancel = .waiting

/-- A settlement has begun: the calls made are those up to the step its owner
has reached. -/
structure Begun (s : StreamState) (bill : Bill) (step : SettleStep) (flow : Flow) : Prop where
  runs : Flow.Runs bill step flow
  request : s.request = requestAt base bill step
  finished : s.finished = true
  owned : s.Owned flow

/-- The stages of a stream; the settlement is for the usage that the translator
has seen, and it sees no more once the settlement has begun. -/
def Staged (s : StreamState) : Prop :=
  s.Open base ∨
    ∃ status step flow, s.Begun base (ctx.bill s.translator status) step flow

variable {ctx base}

theorem open_start (r : RequestState) (h : r = ⟨false, false, false, base⟩) :
    (start ctx r).Open base :=
  ⟨h, rfl, rfl, .inl rfl, rfl⟩

/-- After the call it awaited, a settlement awaits the next one or is over. -/
theorem nextFlow_runs (step : SettleStep) (bill : Bill) (earlier failed : Bool) :
    ∃ step' flow, Flow.Runs bill step' flow ∧
      nextFlow step bill earlier failed (requestAt base bill step) =
        (flow, requestAt base bill step') := by
  cases step with
  | finalizing =>
      refine ⟨.charging, .settling .charging bill (earlier || failed), .inl ⟨_, rfl⟩, ?_⟩
      simp [nextFlow, RequestState.nextSettle, requestAt, RequestState.emit, Bill.calls]
  | charging =>
      refine ⟨.recording, .settling .recording bill earlier, .inl ⟨_, rfl⟩, ?_⟩
      simp [nextFlow, RequestState.nextSettle, requestAt, RequestState.emit, Bill.calls]
  | recording =>
      refine ⟨.releasing, .settling .releasing bill earlier, .inl ⟨_, rfl⟩, ?_⟩
      simp [nextFlow, RequestState.nextSettle, requestAt, RequestState.emit,
        RequestState.releaseLease, Bill.calls]
  | releasing => exact ⟨.releasing, .ended, .inr ⟨rfl, rfl⟩, rfl⟩

theorem beginSettle_open {s : StreamState} (request : s.request = ⟨false, false, false, base⟩)
    (bill : Bill) :
    s.beginSettle bill =
      (.settling .finalizing bill false, { s with request := requestAt base bill .finalizing }) := by
  simp [beginSettle, request, RequestState.beginSettle, RequestState.emit, requestAt, Bill.calls]

theorem finishStream_open {s : StreamState} (request : s.request = ⟨false, false, false, base⟩)
    (running : s.finished = false) (cancel : s.cancel = .waiting) (status : UsageStatus) :
    (s.finishStream ctx status).Staged ctx base := by
  simp only [finishStream, running, Bool.false_eq_true, if_false]
  rw [beginSettle_open (s := { s with finished := true }) request]
  exact .inr ⟨_, .finalizing, _, .inl ⟨false, rfl⟩, rfl, rfl, .inl ⟨rfl, .inl cancel⟩⟩

theorem handleFrame_open {s : StreamState} (h : s.Open base) (event : SseEvent) (written : Bool) :
    (s.handleFrame ctx event written).Staged ctx base := by
  simp only [handleFrame]
  split
  · refine finishStream_open ?_ ?_ ?_ .success
    · exact h.request
    · exact h.finished
    · exact h.cancel
  · refine .inl ⟨h.request, h.finished, h.cancelled, ?_, h.cancel⟩
    cases written with
    | true => exact .inl rfl
    | false => exact .inr rfl

theorem handleRead_open {s : StreamState} (h : s.Open base) (result : ReadResult) :
    (s.handleRead ctx result).Staged ctx base := by
  simp only [handleRead]
  rw [if_neg (by simp [h.finished])]
  cases result with
  | error => exact finishStream_open h.request h.finished h.cancel .error
  | eof => exact finishStream_open h.request h.finished h.cancel .success
  | translatorError left =>
      exact finishStream_open (s := { s with translator := left }) h.request h.finished h.cancel
        .error
  | frame event written => exact handleFrame_open h event written

/-- A cancellation of an open stream begins the settlement for the usage seen. -/
theorem handleCancel_open {s : StreamState} (h : s.Open base) :
    s.handleCancel ctx =
      { s with
        request := requestAt base (ctx.bill s.translator .aborted) .finalizing
        cancelled := true
        finished := true
        cancel := .settling .finalizing (ctx.bill s.translator .aborted) false } := by
  simp only [handleCancel]
  rw [beginSettle_open (s := { s with cancelled := true, finished := true }) h.request]

theorem step_cancel_open {s : StreamState} (h : s.Open base) :
    s.step ctx .cancel = s.handleCancel ctx := by
  cases h.pull with
  | inl waiting => simp only [StreamState.step, waiting, h.cancelled]
  | inr reading => simp only [StreamState.step, reading, h.cancelled]

theorem staged_open {s : StreamState} (h : s.Open base) (a : StreamAction) :
    (s.step ctx a).Staged ctx base := by
  cases a with
  | pull =>
      simp only [StreamState.step]
      split
      · refine .inl ⟨h.request, h.finished, h.cancelled, .inr ?_, h.cancel⟩
        simp [h.finished]
      · exact .inl h
  | read result =>
      simp only [StreamState.step]
      split
      · exact handleRead_open h result
      · exact .inl h
  | pullStep failed =>
      cases h.pull with
      | inl waiting =>
          simp only [StreamState.step, waiting]
          exact .inl h
      | inr reading =>
          simp only [StreamState.step, reading]
          exact .inl h
  | cancel =>
      rw [step_cancel_open h, handleCancel_open h]
      exact .inr ⟨.aborted, .finalizing, _, .inl ⟨false, rfl⟩, rfl, rfl, .inr ⟨rfl, rfl, h.pull⟩⟩
  | cancelStep failed =>
      simp only [StreamState.step, h.cancel]
      exact .inl h

section Settling

variable {s : StreamState} {status : UsageStatus} {step : SettleStep} {flow : Flow}

/-- The flow that runs the settlement is moved on by the end of its call and by
nothing else, and a cancellation that finds it begun is over at once. -/
theorem staged_pull_owner (h : s.Begun base (ctx.bill s.translator status) step flow)
    (pull : s.pull = flow)
    (cancel : s.cancel = .waiting ∨ s.cancel = .ended) (a : StreamAction) :
    (s.step ctx a).Staged ctx base := by
  have same : s.Staged ctx base := .inr ⟨status, step, flow, h⟩
  cases h.runs with
  | inr closed =>
      cases a with
      | cancelStep failed =>
          cases cancel with
          | inl waiting => simpa only [StreamState.step, waiting] using same
          | inr ended => simpa only [StreamState.step, ended] using same
      | _ => simpa only [StreamState.step, pull, closed.1] using same
  | inl running =>
      obtain ⟨earlier, rfl⟩ := running
      cases a with
      | pull | read result => simpa only [StreamState.step, pull] using same
      | pullStep failed =>
          obtain ⟨step', flow, runs, next⟩ := @nextFlow_runs base step
            (ctx.bill s.translator status) earlier failed
          simp only [StreamState.step, pull, h.request, next]
          exact .inr ⟨status, step', flow, runs, rfl, h.finished, .inl ⟨rfl, cancel⟩⟩
      | cancel =>
          cases cancelled : s.cancelled with
          | true => simpa only [StreamState.step, pull, cancelled] using same
          | false =>
              simp only [StreamState.step, pull, cancelled, handleCancel, beginSettle, h.request,
                RequestState.beginSettle, requestAt, if_true]
              exact .inr ⟨status, step, _, h.runs, rfl, rfl, .inl ⟨rfl, .inr rfl⟩⟩
      | cancelStep failed =>
          cases cancel with
          | inl waiting => simpa only [StreamState.step, waiting] using same
          | inr ended => simpa only [StreamState.step, ended] using same

/-- A pull that comes back after the cancellation returns without an effect. -/
theorem staged_cancel_owner (h : s.Begun base (ctx.bill s.translator status) step flow)
    (cancelled : s.cancelled = true) (cancel : s.cancel = flow)
    (idle : s.pull = .waiting ∨ s.pull = .reading) (a : StreamAction) :
    (s.step ctx a).Staged ctx base := by
  have same : s.Staged ctx base := .inr ⟨status, step, flow, h⟩
  cases a with
  | pull | cancel =>
      cases idle with
      | inl waiting => simpa only [StreamState.step, cancelled, waiting] using same
      | inr reading => simpa only [StreamState.step, cancelled, reading] using same
  | read result =>
      cases idle with
      | inl waiting => simpa only [StreamState.step, waiting] using same
      | inr reading =>
          simp only [StreamState.step, reading, handleRead, h.finished, if_true]
          exact .inr ⟨status, step, flow, h.runs, h.request, rfl,
            .inr ⟨cancelled, cancel, .inl rfl⟩⟩
  | pullStep failed =>
      cases idle with
      | inl waiting => simpa only [StreamState.step, waiting] using same
      | inr reading => simpa only [StreamState.step, reading] using same
  | cancelStep failed =>
      cases h.runs with
      | inr closed => simpa only [StreamState.step, cancel, closed.1] using same
      | inl running =>
          obtain ⟨earlier, rfl⟩ := running
          obtain ⟨step', flow, runs, next⟩ := @nextFlow_runs base step
            (ctx.bill s.translator status) earlier failed
          simp only [StreamState.step, cancel, h.request, next]
          exact .inr ⟨status, step', flow, runs, rfl, h.finished, .inr ⟨cancelled, rfl, idle⟩⟩

end Settling

theorem staged_step {s : StreamState} (h : s.Staged ctx base) (a : StreamAction) :
    (s.step ctx a).Staged ctx base := by
  cases h with
  | inl opened => exact staged_open opened a
  | inr begun =>
      obtain ⟨status, step, flow, begun⟩ := begun
      cases begun.owned with
      | inl pulling => exact staged_pull_owner begun pulling.1 pulling.2 a
      | inr cancelling =>
          exact staged_cancel_owner begun cancelling.1 cancelling.2.1 cancelling.2.2 a

/-- A cancelled stream is in settlement for the usage that was seen, whether
the cancellation began it or found it begun. -/
theorem cancel_settles {s : StreamState} (h : s.Staged ctx base) :
    ∃ status step, (s.step ctx .cancel).request.effects =
      base ++ (ctx.bill s.translator status).calls step := by
  cases h with
  | inl opened =>
      refine ⟨.aborted, .finalizing, ?_⟩
      rw [step_cancel_open opened, handleCancel_open opened]
      rfl
  | inr begun =>
      obtain ⟨status, step, flow, begun⟩ := begun
      have same : (s.step ctx .cancel).request = s.request := by
        simp only [StreamState.step]
        split
        · rfl
        · rfl
        · simp only [handleCancel, beginSettle, begun.request, RequestState.beginSettle, requestAt,
            if_true]
      exact ⟨status, step, by rw [same, begun.request, requestAt]⟩

theorem staged_run {s : StreamState} (h : s.Staged ctx base) (as : List StreamAction) :
    (s.run ctx as).Staged ctx base := by
  rw [run]
  exact Machine.run_invariant (I := fun s : StreamState => s.Staged ctx base)
    (fun s a staged => staged_step staged a) h as

/-- A terminated stream has made all the calls of its one settlement. -/
theorem terminated_settled {s : StreamState} (h : s.Staged ctx base) (terminated : s.Terminated) :
    ∃ bill : Bill, s.request.effects = base ++ bill.calls .releasing := by
  obtain ⟨pullOver, cancelOver⟩ := terminated
  cases h with
  | inl opened =>
      cases pullOver with
      | inl ended =>
          cases opened.pull with
          | inl waiting => exact nomatch ended.symm.trans waiting
          | inr reading => exact nomatch ended.symm.trans reading
      | inr cancelled => exact nomatch cancelled.1.symm.trans opened.cancelled
  | inr begun =>
      obtain ⟨status, step, flow, runs, request, _, owned⟩ := begun
      refine ⟨ctx.bill s.translator status, ?_⟩
      cases runs with
      | inr closed => rw [request, requestAt, closed.2]
      | inl running =>
          obtain ⟨failed, rfl⟩ := running
          cases owned with
          | inl pulling =>
              cases pullOver with
              | inl ended => exact nomatch ended.symm.trans pulling.1
              | inr cancelled => exact nomatch cancelled.2.symm.trans pulling.1
          | inr cancelling =>
              cases cancelOver with
              | inl waiting => exact nomatch waiting.symm.trans cancelling.2.1
              | inr ended => exact nomatch ended.symm.trans cancelling.2.1

/-- At any time the calls beyond the first ones are those of a settlement that
has come to some step, or none. -/
theorem staged_effects {s : StreamState} (h : s.Staged ctx base) :
    s.request.effects = base ∨ ∃ (bill : Bill) (step : SettleStep),
      s.request.effects = base ++ bill.calls step := by
  cases h with
  | inl opened => exact .inl (by rw [opened.request])
  | inr begun =>
      obtain ⟨status, step, _, begun⟩ := begun
      exact .inr ⟨_, step, by rw [begun.request, requestAt]⟩

end StreamState

/-- The calls of the `catch`. -/
def Relay.failureCalls (error : GatewayError) (reserved leaseReleased : Bool) : List Effect :=
  (if reserved then [.releaseQuota] else []) ++
    .recordUsage 0 (if error.status = 499 then .aborted else .error) ::
      if leaseReleased then [] else [.leaseRelease]

theorem Relay.fail_effects (error : GatewayError) (r : RequestState) :
    (Relay.fail error r).effects =
      r.effects ++ Relay.failureCalls error r.reserved r.leaseReleased := by
  obtain ⟨reserved, settled, leaseReleased, effects⟩ := r
  cases reserved <;> cases leaseReleased <;>
    simp [Relay.fail, Relay.failureCalls, RequestState.emit, RequestState.releaseLease]

theorem settlements_failureCalls (error : GatewayError) (reserved leaseReleased : Bool) :
    settlements (Relay.failureCalls error reserved leaseReleased) =
      if reserved then [0] else [] := by
  cases reserved <;> cases leaseReleased <;> rfl

theorem usageRows_failureCalls (error : GatewayError) (reserved leaseReleased : Bool) :
    usageRows (Relay.failureCalls error reserved leaseReleased) = [0] := by
  cases reserved <;> cases leaseReleased <;> rfl

theorem leaseReleases_failureCalls (error : GatewayError) (reserved leaseReleased : Bool) :
    leaseReleases (Relay.failureCalls error reserved leaseReleased) =
      if leaseReleased then 0 else 1 := by
  cases reserved <;> cases leaseReleased <;> rfl

/-- The calls after the reservation of a request that fails. -/
inductive Relay.FailedCalls : List Effect → Prop
  | held (error : GatewayError) : FailedCalls (Relay.failureCalls error true false)
  | refunded (error : GatewayError) :
      FailedCalls ([.releaseQuota, .leaseRelease] ++ Relay.failureCalls error false true)
  | settled (bill : Bill) (error : GatewayError) :
      FailedCalls (bill.calls .releasing ++ Relay.failureCalls error false true)

/-- How a relayed request ends, with the calls it has made. -/
inductive Relay.Finishes (o : RelayOutcomes) : RelayResult × RequestState → Prop
  | refused (error : GatewayError) (unadmitted : o.admission.isOk = false) :
      Finishes o (.thrown error, .fresh)
  | unreserved (error : GatewayError) {r : RequestState} (admitted : o.admission.isOk = true)
      (unreserved : o.reserves = false) (unsettled : settlements r.effects = [])
      (released : leaseReleases r.effects = 1) : Finishes o (.thrown error, r)
  | failed (error : GatewayError) {r : RequestState} {amount : Int} {calls : List Effect}
      (reserved : o.reserves = true) (effects : r.effects = .reserveQuota amount :: calls)
      (failed : FailedCalls calls) : Finishes o (.thrown error, r)
  | answered {r : RequestState} {amount : Int} (bill : Bill) (reserved : o.reserves = true)
      (effects : r.effects = .reserveQuota amount :: bill.calls .releasing) :
      Finishes o (.response, r)
  | handedOver {ctx : StreamContext} (amount : Int) (reserved : o.reserves = true) :
      Finishes o (.stream ctx, ⟨false, false, false, [.reserveQuota amount]⟩)

theorem RelayOutcomes.admission_of_reserves {o : RelayOutcomes} (reserved : o.reserves = true) :
    o.admission.isOk = true := by
  simp only [RelayOutcomes.reserves, Bool.and_eq_true] at reserved
  exact reserved.1.1.1

theorem relay_finishes (input : RelayInput) (o : RelayOutcomes) :
    Relay.Finishes o (relay input o) := by
  rw [relay]
  cases admission : o.admission with
  | error e => exact .refused _ (by rw [admission]; rfl)
  | ok _ =>
      cases Relay.attempt_ends input o admission with
      | inl unreserved =>
          obtain ⟨none, e, effects, ended, unsettled, held⟩ := unreserved
          rw [ended]
          refine .unreserved _ (by rw [admission]; rfl) none ?_ ?_
          · rw [Relay.fail_effects, settlements_append, unsettled, settlements_failureCalls]
            rfl
          · rw [Relay.fail_effects, leaseReleases_append, held, leaseReleases_failureCalls]
            rfl
      | inr reserved =>
          obtain ⟨done, amount, ends⟩ := reserved
          generalize Relay.attempt input o .fresh = outcome at ends
          cases ends with
          | held e => exact .failed _ done (Relay.fail_effects _ _) (.held _)
          | refunded e => exact .failed _ done (Relay.fail_effects _ _) (.refunded _)
          | settledThenThrown e bill =>
              exact .failed _ done (Relay.fail_effects _ _) (.settled bill _)
          | answered bill => exact .answered bill done rfl
          | handedOver ctx => exact .handedOver amount done

/-- A stream is handed over with the reservation made and nothing settled. -/
theorem relay_handed {input : RelayInput} {o : RelayOutcomes} {ctx : StreamContext}
    {r : RequestState} (handed : relay input o = (.stream ctx, r)) :
    ∃ amount, r = ⟨false, false, false, [.reserveQuota amount]⟩ := by
  have finishes := relay_finishes input o
  rw [handed] at finishes
  cases finishes with
  | handedOver amount reserved => exact ⟨amount, rfl⟩

theorem Relay.FailedCalls.settles_once {calls : List Effect} (failed : FailedCalls calls) :
    (settlements calls).length = 1 ∧ leaseReleases calls = 1 := by
  cases failed with
  | held error =>
      rw [settlements_failureCalls, leaseReleases_failureCalls]
      exact ⟨rfl, rfl⟩
  | refunded error =>
      rw [settlements_append, leaseReleases_append, settlements_failureCalls,
        leaseReleases_failureCalls]
      exact ⟨rfl, rfl⟩
  | settled bill error =>
      rw [settlements_append, leaseReleases_append, settlements_calls, leaseReleases_calls,
        settlements_failureCalls, leaseReleases_failureCalls]
      exact ⟨rfl, rfl⟩

end Gateway
