import Gateway.Lib.Machine
import Gateway.Lib.LeasedQueue
import Gateway.Quota.Steps

/-!
The ledger under any number of clients, replay workers and operators.

One action is one transaction or one command of the shared store, so a list of
actions is an interleaving. A completion that fails with 503 is followed by a
push to the settlement queue that can itself fail; the queue accepts pushes of
any content, which covers a push that arrives late, twice or garbled. A replay
worker takes one entry at a time and can be interrupted between any two.
-/

namespace Gateway.QuotaSystem

open Transaction

structure State where
  db : LedgerDb
  queue : LeasedQueue.State String QueueItem QueueItem

inductive Action where
  | reserve (degraded : Bool) (identity : Identity) (requestId : String) (amount : JsNumber)
      (now : Int) (commit : Commit)
  | settle (identity : Identity) (requestId : String) (actual : JsNumber) (now : Int)
      (commit : Commit)
  | release (identity : Identity) (requestId : String) (now : Int) (commit : Commit)
      (pushed : Bool)
  | finalize (identity : Identity) (requestId : String) (actual : JsNumber) (now : Int)
      (commit : Commit) (pushed : Bool)
  | replay (worker : String) (now : Int) (commit : Commit)
  | queue (move : LeasedQueue.Action String QueueItem)
  | redeem (attempts : Except Thrown Unit) (rawCode userId : String) (now : Int)
      (commit : Commit)
  | updateToken (tokenId : String) (unlimited : Bool) (now : Int)
  | deleteToken (tokenId : String)

/-- What the caller of an action sees. -/
inductive Reply where
  | reserved (result : Except GatewayError ReserveResult)
  | settled (result : Except Thrown SettleResult)
  | released (result : Except Thrown ReleaseResult)
  | replayed (result : Except Thrown Completion)
  | redeemed (result : Except Thrown RedeemResult)
  | silent

/-- The caller is told that its completion was the one applied. -/
def Reply.applied : Reply → Bool
  | .settled (.ok result) => result.applied
  | .released (.ok result) => result.released
  | .replayed (.ok result) => result.applied
  | _ => false

/-- The push of a deferred completion: its failure is thrown at the caller. -/
def deliver {α : Type} (outcome : Deferred α) (pushed : Bool)
    (queue : LeasedQueue.State String QueueItem QueueItem) :
    Except Thrown α × LeasedQueue.State String QueueItem QueueItem :=
  match outcome with
  | .answered result => (result.mapError Thrown.gateway, queue)
  | .queued entry answer =>
      if pushed then (.ok answer, queue.push entry) else (.error .fault, queue)

/-- The worker applies the next entry of its copy, or gives up on it. -/
def replayNext (worker : String) (now : Int) (commit : Commit) (s : State) : State × Reply :=
  match s.queue.workers worker with
  | .working _ (item :: _) =>
      match replayItem item now commit s.db with
      | (.ok result, db) => (⟨db, s.queue.advance worker⟩, .replayed (.ok result))
      | (.error e, db) => (⟨db, s.queue.abandon worker⟩, .replayed (.error e))
  | _ => (s, .silent)

def step (codeDigestFor : String → String) (s : State) : Action → State × Reply
  | .reserve degraded identity requestId amount now commit =>
      let (result, db) := reserveQuota degraded identity requestId amount now commit s.db
      (⟨db, s.queue⟩, .reserved result)
  | .settle identity requestId actual now commit =>
      let (result, db) := settleQuota identity requestId actual now commit s.db
      (⟨db, s.queue⟩, .settled (result.mapError Thrown.gateway))
  | .release identity requestId now commit pushed =>
      let (outcome, db) := releaseQuota identity requestId now commit s.db
      let (result, queue) := deliver outcome pushed s.queue
      (⟨db, queue⟩, .released result)
  | .finalize identity requestId actual now commit pushed =>
      let (outcome, db) := finalizeQuota identity requestId actual now commit s.db
      let (result, queue) := deliver outcome pushed s.queue
      (⟨db, queue⟩, .settled result)
  | .replay worker now commit => replayNext worker now commit s
  | .queue move => (⟨s.db, s.queue.apply id move⟩, .silent)
  | .redeem attempts rawCode userId now commit =>
      let (result, db) := redeemCode codeDigestFor attempts rawCode userId now commit s.db
      (⟨db, s.queue⟩, .redeemed result)
  | .updateToken tokenId unlimited now =>
      (⟨Gateway.updateToken tokenId unlimited now s.db, s.queue⟩, .silent)
  | .deleteToken tokenId => (⟨Gateway.deleteToken tokenId s.db, s.queue⟩, .silent)

/-- The arguments an action passes to `complete`. -/
structure CompletionCall where
  requestId : String
  actual : JsNumber
deriving DecidableEq, Repr

def completionCall (s : State) : Action → Option CompletionCall
  | .settle _ requestId actual _ _ => some ⟨requestId, actual⟩
  | .release _ requestId _ _ _ => some ⟨requestId, .ofInt 0⟩
  | .finalize _ requestId actual _ _ _ => some ⟨requestId, actual⟩
  | .replay worker _ _ =>
      match s.queue.workers worker with
      | .working _ (.entry requestId _ _ actual :: _) => some ⟨requestId, actual⟩
      | _ => none
  | _ => none

/-- The action asks for the move: a completion charges what its caller passed. -/
def Requests (s : State) (a : Action) : LedgerMove → Prop
  | .complete requestId charge =>
      ∃ actual, completionCall s a = some ⟨requestId, actual⟩ ∧
        ∃ n : Nat, quotaAmount actual "charge" = .ok n ∧ (n : Int) = charge
  | .reserve requestId =>
      ∃ degraded identity amount now commit,
        a = .reserve degraded identity requestId amount now commit
  | _ => completionCall s a = none

section

variable (identity : Identity) (requestId : String) (actual : JsNumber) (kind : CompletionKind)
  (now : Int) (commit : Commit) (db : LedgerDb)

/-- A call of `complete` leaves the ledger alone and reports nothing applied,
or completes the reservation at the charge it was given. -/
theorem complete_cases :
    ((complete identity requestId actual kind now commit db).2 = db ∧
        ∀ result, (complete identity requestId actual kind now commit db).1 = .ok result →
          result.applied = false) ∨
      ∃ charge : Nat, quotaAmount actual "charge" = .ok charge ∧
        LedgerStep db (.complete requestId charge)
          (complete identity requestId actual kind now commit db).2 := by
  rw [complete]
  split
  · exact .inl ⟨rfl, fun _ failed => nomatch failed⟩
  · next charge amount =>
      have nonneg : (0 : Int) ≤ charge := Int.natCast_nonneg charge
      cases atomically_cases ledgerUnavailable commit
        (completeWork identity requestId charge kind now) db with
      | inl undone =>
          obtain ⟨same, e, failed⟩ := undone
          refine .inl ⟨same, fun result returned => ?_⟩
          exact nomatch failed.symm.trans returned
      | inr durable =>
          obtain ⟨result, returned, reported⟩ := durable
          cases completeWork_cases nonneg returned with
          | inl ignored =>
              refine .inl ⟨ignored.1, fun result' returned' => ?_⟩
              cases reported with
              | inl told =>
                  cases told.symm.trans returned'
                  exact ignored.2
              | inr untold => exact nomatch untold.symm.trans returned'
          | inr done => exact .inr ⟨charge, amount, done.2⟩

theorem releaseQuota_db :
    (releaseQuota identity requestId now commit db).2 =
      (complete identity requestId (.ofInt 0) .release now commit db).2 := by
  rw [releaseQuota]
  split
  · next returned => simp only [returned]
  · next failed =>
      simp only [failed]
      split <;> rfl

theorem releaseQuota_applied (pushed : Bool)
    (queue : LeasedQueue.State String QueueItem QueueItem)
    (h : (Reply.released (deliver (releaseQuota identity requestId now commit db).1
      pushed queue).1).applied = true) :
    ∃ result, (complete identity requestId (.ofInt 0) .release now commit db).1 = .ok result ∧
      result.applied = true := by
  rw [releaseQuota] at h
  split at h
  · next result db' returned => exact ⟨result, by rw [returned], h⟩
  · split at h
    · cases h
    · cases pushed <;> cases h

theorem finalizeQuota_db :
    (finalizeQuota identity requestId actual now commit db).2 =
      (complete identity requestId actual (kindOf actual) now commit db).2 := by
  rw [finalizeQuota]
  split
  · next refused => simp only [complete, refused]
  · split
    · next returned => simp only [returned]
    · next failed =>
        simp only [failed]
        split <;> rfl

theorem finalizeQuota_applied (pushed : Bool)
    (queue : LeasedQueue.State String QueueItem QueueItem)
    (h : (Reply.settled (deliver (finalizeQuota identity requestId actual now commit db).1
      pushed queue).1).applied = true) :
    ∃ result, (complete identity requestId actual (kindOf actual) now commit db).1 = .ok result ∧
      result.applied = true := by
  rw [finalizeQuota] at h
  split at h
  · cases h
  · split at h
    · next result db' returned => exact ⟨result, by rw [returned], h⟩
    · split at h
      · cases h
      · cases pushed <;> cases h

end

/-- What one action did to the ledger: nothing, or one step it asked for; only
a completion is ever reported as applied. -/
def Accounted (s : State) (a : Action) (next : State × Reply) : Prop :=
  (next.1.db = s.db ∧ next.2.applied = false) ∨
    ∃ m, Requests s a m ∧ LedgerStep s.db m next.1.db ∧
      (next.2.applied = true → ∃ requestId charge, m = .complete requestId charge)

private theorem accounted_complete {s : State} {a : Action} {next : State × Reply}
    (identity : Identity) (requestId : String) (actual : JsNumber) (kind : CompletionKind)
    (now : Int) (commit : Commit)
    (call : completionCall s a = some ⟨requestId, actual⟩)
    (ledger : next.1.db = (complete identity requestId actual kind now commit s.db).2)
    (reported : next.2.applied = true →
      ∃ result, (complete identity requestId actual kind now commit s.db).1 = .ok result ∧
        result.applied = true) : Accounted s a next := by
  cases complete_cases identity requestId actual kind now commit s.db with
  | inl ignored =>
      refine .inl ⟨ledger.trans ignored.1, ?_⟩
      cases applied : next.2.applied with
      | false => rfl
      | true =>
          obtain ⟨result, returned, told⟩ := reported applied
          exact absurd told (by simp [ignored.2 result returned])
  | inr done =>
      obtain ⟨charge, amount, moved⟩ := done
      refine .inr ⟨.complete requestId charge, ⟨actual, call, charge, amount, rfl⟩, ?_, ?_⟩
      · rw [ledger]
        exact moved
      · exact fun _ => ⟨requestId, charge, rfl⟩

private theorem accounted_reserve {s : State} {degraded : Bool} {identity : Identity}
    {requestId : String} {amount : JsNumber} {now : Int} {commit : Commit} :
    let next := reserveQuota degraded identity requestId amount now commit s.db
    Accounted s (.reserve degraded identity requestId amount now commit)
      (⟨next.2, s.queue⟩, .reserved next.1) := by
  rw [reserveQuota]
  split
  · exact .inl ⟨rfl, rfl⟩
  split
  · exact .inl ⟨rfl, rfl⟩
  split
  · exact .inl ⟨rfl, rfl⟩
  next need _ _ =>
  have positive : (0 : Int) < max 1 (need : Int) := by omega
  cases atomically_cases ledgerUnavailable commit
    (reserveWork identity requestId (max 1 need) now) s.db with
  | inl undone => exact .inl ⟨undone.1, rfl⟩
  | inr durable =>
      obtain ⟨result, returned, _⟩ := durable
      cases reserveWork_cases positive returned with
      | inl replayed => exact .inl ⟨replayed.1, rfl⟩
      | inr moved =>
          exact .inr ⟨.reserve requestId, ⟨degraded, identity, amount, now, commit, rfl⟩, moved,
            fun applied => nomatch applied⟩

private theorem accounted_redeem {s : State} {codeDigestFor : String → String}
    {attempts : Except Thrown Unit} {rawCode userId : String} {now : Int} {commit : Commit} :
    let next := redeemCode codeDigestFor attempts rawCode userId now commit s.db
    Accounted s (.redeem attempts rawCode userId now commit)
      (⟨next.2, s.queue⟩, .redeemed next.1) := by
  rw [redeemCode]
  split
  · exact .inl ⟨rfl, rfl⟩
  split
  · exact .inl ⟨rfl, rfl⟩
  next trimmed _ _ =>
  cases atomically_cases Thrown.fault commit
    (redeemWork (codeDigestFor (toUpperAlnum trimmed)) userId now) s.db with
  | inl undone => exact .inl ⟨undone.1, rfl⟩
  | inr durable =>
      obtain ⟨result, returned, _⟩ := durable
      obtain ⟨codeId, moved⟩ := redeemWork_cases returned
      exact .inr ⟨.redeem codeId, rfl, moved, fun applied => nomatch applied⟩

private theorem accounted_replay {s : State} {worker : String} {now : Int} {commit : Commit} :
    Accounted s (.replay worker now commit) (replayNext worker now commit s) := by
  rw [replayNext]
  split
  · next raw item jobs working =>
      cases item with
      | corrupt => exact .inl ⟨rfl, rfl⟩
      | entry requestId userId tokenId actual =>
          by_cases malformed : requestId = "" ∨ userId = "" ∨ tokenId = ""
          · simp only [replayItem, malformed, if_true]
            exact .inl ⟨rfl, rfl⟩
          · simp only [replayItem, malformed, if_false]
            refine accounted_complete ⟨userId, tokenId⟩ requestId actual (kindOf actual) now commit
              ?_ ?_ ?_
            · simp only [completionCall, working]
            · cases returned : (complete ⟨userId, tokenId⟩ requestId actual (kindOf actual) now
                commit s.db).1 <;> simp only [Except.mapError]
            · intro applied
              cases returned : (complete ⟨userId, tokenId⟩ requestId actual (kindOf actual) now
                commit s.db).1 with
              | error e =>
                  simp only [returned, Except.mapError] at applied
                  cases applied
              | ok result =>
                  simp only [returned, Except.mapError] at applied
                  exact ⟨result, rfl, applied⟩
  · exact .inl ⟨rfl, rfl⟩

theorem step_accounted (codeDigestFor : String → String) (s : State) (a : Action) :
    Accounted s a (step codeDigestFor s a) := by
  cases a with
  | reserve degraded identity requestId amount now commit => exact accounted_reserve
  | settle identity requestId actual now commit =>
      refine accounted_complete identity requestId actual .settle now commit rfl rfl ?_
      intro applied
      simp only [step, settleQuota] at applied
      cases returned : (complete identity requestId actual .settle now commit s.db).1 with
      | error e =>
          simp only [returned, Except.map, Except.mapError] at applied
          cases applied
      | ok result =>
          simp only [returned, Except.map, Except.mapError] at applied
          exact ⟨result, rfl, applied⟩
  | release identity requestId now commit pushed =>
      exact accounted_complete identity requestId (.ofInt 0) .release now commit rfl
        (releaseQuota_db identity requestId now commit s.db)
        (releaseQuota_applied identity requestId now commit s.db pushed s.queue)
  | finalize identity requestId actual now commit pushed =>
      exact accounted_complete identity requestId actual (kindOf actual) now commit rfl
        (finalizeQuota_db identity requestId actual now commit s.db)
        (finalizeQuota_applied identity requestId actual now commit s.db pushed s.queue)
  | replay worker now commit => exact accounted_replay
  | queue move => exact .inl ⟨rfl, rfl⟩
  | redeem attempts rawCode userId now commit => exact accounted_redeem
  | updateToken tokenId unlimited now =>
      exact .inr ⟨.updateToken tokenId, rfl, .updateToken tokenId unlimited now,
        fun applied => nomatch applied⟩
  | deleteToken tokenId =>
      exact .inr ⟨.deleteToken tokenId, rfl, .deleteToken tokenId, fun applied => nomatch applied⟩

/-- A preorder on ledgers that contains every ledger step contains every run. -/
theorem run_ledger_related {R : LedgerDb → LedgerDb → Prop} (refl : ∀ db, R db db)
    (trans : ∀ db db' db'', R db db' → R db' db'' → R db db'')
    (single : ∀ db m db', LedgerStep db m db' → R db db')
    (codeDigestFor : String → String) (s : State) (as : List Action) :
    R s.db (Machine.run (step codeDigestFor) s as).db := by
  refine Machine.run_related (R := fun s t : State => R s.db t.db) (fun s => refl s.db)
    (fun s t u => trans s.db t.db u.db) ?_ s as
  intro t a
  cases step_accounted codeDigestFor t a with
  | inl same => exact same.1 ▸ refl t.db
  | inr moved =>
      obtain ⟨m, _, moved, _⟩ := moved
      exact single _ m _ moved

end Gateway.QuotaSystem
