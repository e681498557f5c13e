import Gateway.Http.Errors
import Gateway.Usage.Log

/-!
What a request does to the ledger, the usage log and its lease.

The calls are logged in the order they are made, since a call that throws may
still have taken effect. A settlement is a fixed sequence of awaited calls; the
steps between them are where other parts of a request can run.
-/

namespace Gateway

inductive Effect where
  | reserveQuota (amount : Int)
  | finalizeQuota (amount : Int)
  | releaseQuota
  | chargeTokenBudget (tokens : Nat)
  | recordUsage (quota : Int) (status : UsageStatus)
  | leaseRelease
deriving DecidableEq, Repr

/-- The flags of a request that outlive an await, with its calls so far. -/
structure RequestState where
  reserved : Bool
  settled : Bool
  leaseReleased : Bool
  effects : List Effect
deriving DecidableEq, Repr

/-- What a settlement charges and records. -/
structure Bill where
  quota : Int
  tokens : Nat
  status : UsageStatus
deriving DecidableEq, Repr

/-- The call of a settlement that is being awaited. -/
inductive SettleStep where
  | finalizing
  | charging
  | recording
  | releasing
deriving DecidableEq, Repr

namespace RequestState

def fresh : RequestState := ⟨false, false, false, []⟩

def emit (r : RequestState) (e : Effect) : RequestState := { r with effects := r.effects ++ [e] }

def releaseLease (r : RequestState) : RequestState :=
  if r.leaseReleased then r else { r.emit .leaseRelease with leaseReleased := true }

/-- The part of a settlement before its first await; nothing for a request that
is settled. -/
def beginSettle (bill : Bill) (r : RequestState) : Option RequestState :=
  if r.settled then none
  else some { r.emit (.finalizeQuota bill.quota) with settled := true, reserved := false }

/-- From the end of one awaited call to the next. -/
def nextSettle (bill : Bill) (step : SettleStep) (r : RequestState) :
    Option SettleStep × RequestState :=
  match step with
  | .finalizing => (some .charging, r.emit (.chargeTokenBudget bill.tokens))
  | .charging => (some .recording, r.emit (.recordUsage bill.quota bill.status))
  | .recording => (if r.leaseReleased then none else some .releasing, r.releaseLease)
  | .releasing => (none, r)

/-- A settlement that nothing interrupts. The outcome of `finalizeQuota` is kept
until the row is recorded and the lease given back. -/
def settle (bill : Bill) (finalized : Except Thrown Unit) (r : RequestState) :
    Except Thrown Unit × RequestState :=
  match r.beginSettle bill with
  | none => (.ok (), r)
  | some r =>
      let r := (nextSettle bill .finalizing r).2
      let r := (nextSettle bill .charging r).2
      (finalized, (nextSettle bill .recording r).2)

end RequestState

/-- The charges the ledger was asked to make: a release charges nothing. -/
def settlements : List Effect → List Int :=
  List.filterMap fun
    | .finalizeQuota amount => some amount
    | .releaseQuota => some 0
    | _ => none

/-- The quotas of the usage rows that were recorded. -/
def usageRows : List Effect → List Int :=
  List.filterMap fun
    | .recordUsage quota _ => some quota
    | _ => none

def leaseReleases (effects : List Effect) : Nat := effects.countP (· = .leaseRelease)

/-- The calls a settlement has made when it awaits a step. -/
def Bill.calls (bill : Bill) : SettleStep → List Effect
  | .finalizing => [.finalizeQuota bill.quota]
  | .charging => [.finalizeQuota bill.quota, .chargeTokenBudget bill.tokens]
  | .recording =>
      [.finalizeQuota bill.quota, .chargeTokenBudget bill.tokens,
        .recordUsage bill.quota bill.status]
  | .releasing =>
      [.finalizeQuota bill.quota, .chargeTokenBudget bill.tokens,
        .recordUsage bill.quota bill.status, .leaseRelease]

theorem exists_of_isOk {α : Type*} {outcome : Except Thrown α} (h : outcome.isOk = true) :
    ∃ value, outcome = .ok value := by
  cases outcome with
  | error e => simp [Except.isOk, Except.toBool] at h
  | ok value => exact ⟨value, rfl⟩

theorem settlements_append (as bs : List Effect) :
    settlements (as ++ bs) = settlements as ++ settlements bs := List.filterMap_append

theorem usageRows_append (as bs : List Effect) :
    usageRows (as ++ bs) = usageRows as ++ usageRows bs := List.filterMap_append

theorem leaseReleases_append (as bs : List Effect) :
    leaseReleases (as ++ bs) = leaseReleases as + leaseReleases bs := List.countP_append

theorem settlements_calls (bill : Bill) (step : SettleStep) :
    settlements (bill.calls step) = [bill.quota] := by
  cases step <;> rfl

theorem usageRows_calls (bill : Bill) : usageRows (bill.calls .releasing) = [bill.quota] := rfl

theorem leaseReleases_calls (bill : Bill) (step : SettleStep) :
    leaseReleases (bill.calls step) = if step = .releasing then 1 else 0 := by
  cases step <;> rfl

/-- The settlement of a request that holds its lease makes all its calls. -/
theorem settle_open (bill : Bill) (finalized : Except Thrown Unit) {r : RequestState}
    (unsettled : r.settled = false) (held : r.leaseReleased = false) :
    r.settle bill finalized =
      (finalized, ⟨false, true, true, r.effects ++ bill.calls .releasing⟩) := by
  simp [RequestState.settle, RequestState.beginSettle, unsettled, RequestState.nextSettle,
    RequestState.emit, RequestState.releaseLease, held, Bill.calls]

end Gateway
