import Gateway.Relay.Lifecycle
import Gateway.Relay.Passthrough
import Gateway.Tasks.Submit

/-!
The usage log against the ledger, on every path that bills a request.

The three paths settle and record in their own order. What they have to agree on
is one thing: a reservation is settled once, and the first row of the request
says what the settlement charged.
-/

namespace Gateway

/-- The request is settled once, and its first row has the amount charged. -/
def RowAgrees (effects : List Effect) : Prop :=
  ∃ amount, settlements effects = [amount] ∧ (usageRows effects).head? = some amount

theorem rowAgrees_reserve (amount : Int) (effects : List Effect) :
    RowAgrees (.reserveQuota amount :: effects) ↔ RowAgrees effects := Iff.rfl

/-- What comes after a settlement that is recorded does not matter, as long as
nothing is settled again. -/
theorem rowAgrees_append {effects later : List Effect} (agrees : RowAgrees effects)
    (unsettled : settlements later = []) : RowAgrees (effects ++ later) := by
  obtain ⟨amount, settled, row⟩ := agrees
  refine ⟨amount, by rw [settlements_append, settled, unsettled, List.append_nil], ?_⟩
  rw [usageRows_append, List.head?_append, row, Option.some_or]

theorem rowAgrees_calls (bill : Bill) : RowAgrees (bill.calls .releasing) :=
  ⟨bill.quota, settlements_calls bill .releasing, by rw [usageRows_calls, List.head?_cons]⟩

theorem rowAgrees_failure (error : GatewayError) (leaseReleased : Bool) :
    RowAgrees (Relay.failureCalls error true leaseReleased) :=
  ⟨0, settlements_failureCalls error true leaseReleased,
    by rw [usageRows_failureCalls, List.head?_cons]⟩

/-- A run of one of the paths that bill a request: what comes in, how every
awaited step ends, and for a stream the order of its events. -/
inductive BillingRun where
  | relay (input : RelayInput) (o : RelayOutcomes) (as : List StreamAction)
  | passthrough (input : PassthroughInput) (o : PassthroughOutcomes)
  | task (input : TaskSubmitInput) (o : TaskSubmitOutcomes)

namespace BillingRun

def reserves : BillingRun → Bool
  | .relay _ o _ => o.reserves
  | .passthrough _ o => o.reserves
  | .task _ o => o.reserves

/-- The request is over: a stream is when none of its flows will run again. -/
def Completed : BillingRun → Prop
  | .relay input o as =>
      match Gateway.relay input o with
      | (.stream ctx, r) => ((StreamState.start ctx r).run ctx as).Terminated
      | _ => True
  | _ => True

def effects : BillingRun → List Effect
  | .relay input o as =>
      match Gateway.relay input o with
      | (.stream ctx, r) => ((StreamState.start ctx r).run ctx as).request.effects
      | (_, r) => r.effects
  | .passthrough input o => (relayPassthrough input o).2.effects
  | .task input o => (handleTaskSubmit input o).2.effects

/-- A passthrough that was answered costs something, and its `finalizeQuota`
throws. -/
def SettlementThrows : BillingRun → Prop
  | .passthrough input o =>
      o.answered = true ∧ o.finalize.isOk = false ∧
        ∃ pricing groupRatio, o.pricing = .ok (pricing, groupRatio) ∧
          (computeQuota input.quotaPerUnit (Passthrough.usage input o) pricing groupRatio
            input.billedModel).quota ≠ 0
  | _ => False

end BillingRun

theorem rowAgrees_failedCalls {calls : List Effect} (failed : Relay.FailedCalls calls) :
    RowAgrees calls := by
  cases failed with
  | held error => exact rowAgrees_failure error false
  | refunded error => exact ⟨0, rfl, rfl⟩
  | settled bill error =>
      exact rowAgrees_append (rowAgrees_calls bill) (settlements_failureCalls error false true)

theorem relay_rowAgrees (input : RelayInput) (o : RelayOutcomes) (as : List StreamAction)
    (reserved : o.reserves = true) (completed : (BillingRun.relay input o as).Completed) :
    RowAgrees (BillingRun.relay input o as).effects := by
  have finishes := relay_finishes input o
  simp only [BillingRun.Completed, BillingRun.effects] at completed ⊢
  generalize relay input o = outcome at finishes completed
  cases finishes with
  | refused error unadmitted =>
      exact nomatch unadmitted.symm.trans (RelayOutcomes.admission_of_reserves reserved)
  | unreserved error admitted unreserved => exact nomatch unreserved.symm.trans reserved
  | failed error reserved effects failed =>
      simp only [effects, rowAgrees_reserve]
      exact rowAgrees_failedCalls failed
  | answered bill reserved effects =>
      simp only [effects, rowAgrees_reserve]
      exact rowAgrees_calls bill
  | handedOver amount reserved =>
      obtain ⟨bill, calls⟩ := StreamState.terminated_settled
        (StreamState.staged_run (.inl (StreamState.open_start _ rfl)) as) completed
      simp only [calls]
      exact rowAgrees_calls bill

theorem passthrough_rowAgrees_iff (input : PassthroughInput) (o : PassthroughOutcomes)
    (reserved : o.reserves = true) :
    RowAgrees (BillingRun.passthrough input o).effects ↔
      ¬(BillingRun.passthrough input o).SettlementThrows := by
  obtain ⟨pricing, groupRatio, amount, calls, priced, effects, ends⟩ :=
    Passthrough.relayPassthrough_calls input o reserved
  simp only [BillingRun.effects, BillingRun.SettlementThrows, effects, rowAgrees_reserve, priced,
    Except.ok.injEq, Prod.mk.injEq]
  cases ends with
  | refunded unanswered =>
      simp only [unanswered, Bool.false_eq_true, false_and, not_false_eq_true, iff_true]
      exact ⟨0, rfl, rfl⟩
  | unsettled answered thrown =>
      simp [RowAgrees, settlements, usageRows, answered, thrown, Except.isOk, Except.toBool,
        eq_comm]
  | charged tokens later answered settled rows =>
      simp only [settled, Except.isOk, Except.toBool, Bool.true_eq_false, false_and, and_false,
        not_false_eq_true, iff_true]
      refine rowAgrees_append (rowAgrees_calls _) ?_
      cases rows with
      | inl none => rw [none]; rfl
      | inr one => rw [one]; rfl

theorem task_rowAgrees (input : TaskSubmitInput) (o : TaskSubmitOutcomes)
    (reserved : o.reserves = true) : RowAgrees (BillingRun.task input o).effects := by
  obtain ⟨quota, amount, calls, ends, effects⟩ :=
    TaskSubmit.handleTaskSubmit_calls input o reserved
  rw [BillingRun.effects, effects, rowAgrees_reserve]
  cases ends with
  | refunded => exact ⟨0, rfl, rfl⟩
  | charged status later rows =>
      refine ⟨quota, ?_, rfl⟩
      cases rows with
      | inl none => rw [none]; rfl
      | inr one => rw [one]; rfl

/-- A passthrough is settled once even where its row is wrong. -/
theorem passthrough_settles_once (input : PassthroughInput) (o : PassthroughOutcomes)
    (reserved : o.reserves = true) :
    (settlements (BillingRun.passthrough input o).effects).length = 1 := by
  obtain ⟨pricing, groupRatio, amount, calls, _, effects, ends⟩ :=
    Passthrough.relayPassthrough_calls input o reserved
  rw [BillingRun.effects, effects]
  cases ends with
  | refunded | unsettled => rfl
  | charged tokens later answered settled rows =>
      cases rows with
      | inl none => rw [none]; rfl
      | inr one => rw [one]; rfl

/-- On every path that bills a request, a reservation is settled once and the
first row of the request has the amount it was charged, just when the request is
no passthrough whose charge throws. -/
theorem row_agrees_iff (run : BillingRun) (reserved : run.reserves = true)
    (completed : run.Completed) : RowAgrees run.effects ↔ ¬run.SettlementThrows := by
  cases run with
  | relay input o as =>
      exact iff_of_true (relay_rowAgrees input o as reserved completed) not_false
  | passthrough input o => exact passthrough_rowAgrees_iff input o reserved
  | task input o => exact iff_of_true (task_rowAgrees input o reserved) not_false

/-- Four thousand bytes that are answered with audio; the settlement throws. -/
def thrownSettlement : BillingRun :=
  .passthrough ⟨"claude-haiku-4", 4000, 500, 500000⟩
    { admission := .ok ()
      pricing := .ok (haikuPricing, 1)
      reserve := .ok ()
      upstream := .ok ()
      body := .ok ()
      isJson := false
      parsed := none
      finalize := .error .fault
      respond := .ok () }

/-- The ledger is charged 1000 and the only row says nothing was. -/
theorem thrown_settlement_row_lost :
    thrownSettlement.reserves = true ∧ thrownSettlement.Completed ∧
      settlements thrownSettlement.effects = [1000] ∧ usageRows thrownSettlement.effects = [0] ∧
        ¬RowAgrees thrownSettlement.effects := by
  have charged : settlements thrownSettlement.effects = [1000] := by decide +kernel
  have rows : usageRows thrownSettlement.effects = [0] := by decide +kernel
  refine ⟨rfl, trivial, charged, rows, ?_⟩
  rw [RowAgrees, charged, rows]
  simp

/-- The same job as an asynchronous one. -/
def thrownSubmission : BillingRun :=
  .task ⟨"suno", "default", 4000, none, 500, 500000⟩
    { admission := .ok ()
      pricing := .ok (haikuPricing, 1)
      reserve := .ok ()
      channels := [.unsent .fault, .accepted]
      finalize := .error .fault
      text := .ok ()
      parsed := true
      created := .ok ()
      stored := .ok ()
      respond := .ok () }

theorem thrown_submission_row_kept : RowAgrees thrownSubmission.effects :=
  (row_agrees_iff thrownSubmission rfl trivial).mpr not_false

end Gateway
