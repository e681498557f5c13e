import Gateway.Lib.Transaction
import Gateway.Util.Number
import Gateway.Util.Text
import Gateway.Http.Errors
import Gateway.Db.Types

/-!
The durable, transactional quota ledger.

The bodies of the transactions thread the database through their writes, so a
body that throws after a debit returns the half-written state and it is the
transaction that undoes it. Clocks, the degraded switch of the shared limiter
and the outcome of the store are arguments.
-/

namespace Gateway

open Transaction

/-- What the ledger uses of an authenticated caller. -/
structure Identity where
  userId : String
  tokenId : String
deriving DecidableEq, Repr

structure ReserveResult where
  reservationId : String
  reserved : Int
  remaining : Int
  replayed : Bool
deriving DecidableEq, Repr

structure SettleResult where
  applied : Bool
  remaining : Int
deriving DecidableEq, Repr

/-- `SettleResult & { refunded: number }` -/
structure Completion extends SettleResult where
  refunded : Int
deriving DecidableEq, Repr

inductive CompletionKind where
  | settle
  | release
deriving DecidableEq, Repr

def CompletionKind.journalKind : CompletionKind → JournalKind
  | .settle => .settle
  | .release => .release

def QUOTA_LEDGER_VERSION : Nat := 2

def RESERVATION_TTL_SEC : Int := 900

def ledgerUnavailable : GatewayError :=
  ⟨.serviceUnavailable, 503,
    "the durable quota ledger is unavailable; refusing to serve unmetered traffic",
    .overloadedError, none, false, none⟩

/-- Financial inputs are integral, bounded and non-negative. -/
def quotaAmount (value : JsNumber) (field : String) : Except GatewayError Nat :=
  match value with
  | .finite q =>
      if q < 0 ∨ isSafeInteger ⌈q⌉ = false then
        .error (invalidParam (field ++ " must be a non-negative safe number") field)
      else .ok ⌈q⌉.toNat
  | _ => .error (invalidParam (field ++ " must be a non-negative safe number") field)

def migrationRequired : GatewayError :=
  .ofStatus .configurationError 503
    "quota ledger migration is required before this account can relay" none

/-- `requireUpgraded` throws unless this holds. -/
def isUpgraded (version : Option Nat) : Bool := version == some QUOTA_LEDGER_VERSION

def transaction {α : Type} (commit : Commit)
    (work : LedgerDb → Except GatewayError α × LedgerDb) (db : LedgerDb) :
    Except GatewayError α × LedgerDb :=
  atomically ledgerUnavailable commit work db

/-- `user?.quota ?? 0` -/
def balanceOf (db : LedgerDb) (userId : String) : Int :=
  ((db.users.find userId).map UserDoc.quota).getD 0

def debitUser (need now : Int) : Update UserDoc where
  apply d := { d with quota := d.quota - need, updatedAt := now }
  key_apply _ := rfl

def debitToken (need now : Int) : Update TokenDoc where
  apply d := { d with quota := d.quota - need, updatedAt := now }
  key_apply _ := rfl

def completeUser (kind : CompletionKind) (delta charge now : Int) : Update UserDoc where
  apply d :=
    { d with
      quota := d.quota + delta
      usedQuota := d.usedQuota + charge
      requestCount := d.requestCount + if kind = .settle then 1 else 0
      updatedAt := now }
  key_apply _ := rfl

def completeToken (limited : Bool) (delta charge : Int) : Update TokenDoc where
  apply d :=
    { d with
      quota := if limited then d.quota + delta else d.quota
      usedQuota := d.usedQuota + charge }
  key_apply _ := rfl

def applyReservation (kind : CompletionKind) (charge now : Int) : Update QuotaJournalDoc where
  apply d :=
    { d with
      kind := kind.journalKind
      amount := charge
      state := .applied
      appliedAt := some now }
  key_apply _ := rfl

/-- The row a fresh hold is journalled under. -/
def reservation (requestId userId tokenId : String) (tokenLimited : Bool) (need now : Int) :
    QuotaJournalDoc :=
  { id := requestId
    requestId := requestId
    kind := .reserve
    userId := userId
    tokenId := tokenId
    amount := 0
    reserved := need
    state := .pending
    createdAt := now
    appliedAt := none
    expiresAt := some (now + RESERVATION_TTL_SEC * 1000)
    tokenLimited := tokenLimited }

/-- `date && date.getTime() <= Date.now()` -/
def hasPassed (date : Option Int) (now : Int) : Bool :=
  match date with
  | some t => decide (t ≤ now)
  | none => false

/-- A stored reservation answers a replay only if it is the same live hold. -/
def isReplay (identity : Identity) (need now : Int) (existing : QuotaJournalDoc) : Bool :=
  existing.userId == identity.userId && existing.tokenId == identity.tokenId &&
    existing.state == .pending && existing.reserved == need &&
    existing.expiresAt.isSome && !hasPassed existing.expiresAt now

def reservationReused : GatewayError :=
  invalidRequest "a reservation id cannot be reused for a different operation"

def notActive : GatewayError := forbidden "this account or api key is not active"

/-- Debits the token if it is limited, by its stored flag: a cached identity may
predate an operator's change of the cap. -/
def debitLimited (token : TokenDoc) (need now : Int) (tokens : Collection TokenDoc) :
    Option (Collection TokenDoc) :=
  if token.unlimitedQuota then some tokens
  else (tokens.findOneAndUpdate token.id
    (fun t => decide (t.status = .enabled ∧ need ≤ t.quota)) (debitToken need now)).map (·.2)

/-- The body of the transaction of `reserveQuota`. -/
def reserveWork (identity : Identity) (requestId : String) (need now : Int) (db : LedgerDb) :
    Except GatewayError ReserveResult × LedgerDb :=
  match db.journal.find requestId with
  | some existing =>
      if isReplay identity need now existing then
        (.ok ⟨requestId, existing.reserved, balanceOf db identity.userId, true⟩, db)
      else (.error reservationReused, db)
  | none =>
      match db.users.find identity.userId,
          db.tokens.findOne identity.tokenId (fun t => t.userId == identity.userId) with
      | some user, some token =>
          if user.status ≠ .enabled ∨ token.status ≠ .enabled ∨
              hasPassed token.expiresAt now = true then
            (.error notActive, db)
          else if isUpgraded user.quotaLedgerVersion = false ∨
              isUpgraded token.quotaLedgerVersion = false then
            (.error migrationRequired, db)
          else if isSafeInteger user.quota = false ∨ isSafeInteger token.quota = false then
            (.error ledgerUnavailable, db)
          else if user.quota < need ∨ (token.unlimitedQuota = false ∧ token.quota < need) then
            (.error (insufficientQuota "insufficient quota for this request"), db)
          else
            match db.users.findOneAndUpdate user.id
                (fun u => decide (u.status = .enabled ∧ need ≤ u.quota)) (debitUser need now) with
            | none => (.error (insufficientQuota "insufficient quota"), db)
            | some (debited, users) =>
                match debitLimited token need now db.tokens with
                | none =>
                    (.error (insufficientQuota "insufficient quota"), { db with users := users })
                | some tokens =>
                    match db.journal.insertOne (reservation requestId user.id token.id
                        (!token.unlimitedQuota) need now) with
                    | none =>
                        (.error ledgerUnavailable, { db with users := users, tokens := tokens })
                    | some journal =>
                        (.ok ⟨requestId, need, debited.quota, false⟩,
                          { db with users := users, tokens := tokens, journal := journal })
      | _, _ => (.error notActive, db)

def reserveQuota (degraded : Bool) (identity : Identity) (requestId : String)
    (amount : JsNumber) (now : Int) (commit : Commit) (db : LedgerDb) :
    Except GatewayError ReserveResult × LedgerDb :=
  if degraded then (.error ledgerUnavailable, db)
  else
    match quotaAmount amount "quota" with
    | .error e => (.error e, db)
    | .ok need =>
        if requestId = "" ∨ 128 < jsLength requestId then
          (.error (invalidRequest "invalid reservation id"), db)
        else transaction commit (reserveWork identity requestId (max 1 need) now) db

/-- The body of the transaction of `complete`. -/
def completeWork (identity : Identity) (requestId : String) (charge : Int)
    (kind : CompletionKind) (now : Int) (db : LedgerDb) :
    Except GatewayError Completion × LedgerDb :=
  match db.journal.findOne requestId
      (fun r => r.userId == identity.userId && r.tokenId == identity.tokenId) with
  | none => (.ok ⟨⟨false, balanceOf db identity.userId⟩, 0⟩, db)
  | some reservation =>
      if reservation.state ≠ .pending then
        (.ok ⟨⟨false, balanceOf db identity.userId⟩, 0⟩, db)
      else
        match db.users.find identity.userId with
        | none => (.error ledgerUnavailable, db)
        | some user =>
            let delta := reservation.reserved - charge
            if isSafeInteger (user.quota + delta) = false ∨
                isSafeInteger (user.usedQuota + charge) = false then
              (.error ledgerUnavailable, db)
            else
              match db.users.findOneAndUpdate user.id (fun _ => true)
                  (completeUser kind delta charge now) with
              | none => (.error ledgerUnavailable, db)
              | some (updated, users) =>
                  -- A key deleted meanwhile misses the filter; its owner still pays.
                  let tokens := db.tokens.updateOne identity.tokenId
                    (fun t => t.userId == identity.userId)
                    (completeToken reservation.tokenLimited delta charge)
                  let journal := db.journal.updateOne requestId (fun r => r.state == .pending)
                    (applyReservation kind charge now)
                  (.ok ⟨⟨true, updated.quota⟩,
                      if kind = .release then reservation.reserved else 0⟩,
                    { db with users := users, tokens := tokens, journal := journal })

def complete (identity : Identity) (requestId : String) (actual : JsNumber)
    (kind : CompletionKind) (now : Int) (commit : Commit) (db : LedgerDb) :
    Except GatewayError Completion × LedgerDb :=
  match quotaAmount actual "charge" with
  | .error e => (.error e, db)
  | .ok charge => transaction commit (completeWork identity requestId charge kind now) db

def settleQuota (identity : Identity) (requestId : String) (actual : JsNumber) (now : Int)
    (commit : Commit) (db : LedgerDb) : Except GatewayError SettleResult × LedgerDb :=
  let (result, db') := complete identity requestId actual .settle now commit db
  (result.map Completion.toSettleResult, db')

/-- An entry of the settlement queue, as its reader parses it. `corrupt` is one
that does not parse to an object. -/
inductive QueueItem where
  | corrupt
  | entry (requestId userId tokenId : String) (actual : JsNumber)
deriving DecidableEq, Repr

/-- `actual === 0 ? "release" : "settle"` -/
def kindOf (actual : JsNumber) : CompletionKind :=
  if actual.isZero then .release else .settle

/-- What a completion leaves to do once it has failed with 503: the entry to
push to the settlement queue and the answer to give when the push succeeds. -/
inductive Deferred (α : Type) where
  | answered (result : Except GatewayError α)
  | queued (entry : QueueItem) (answer : α)

structure ReleaseResult where
  released : Bool
  refunded : Int
deriving DecidableEq, Repr

def releaseQuota (identity : Identity) (requestId : String) (now : Int) (commit : Commit)
    (db : LedgerDb) : Deferred ReleaseResult × LedgerDb :=
  match complete identity requestId (.ofInt 0) .release now commit db with
  | (.ok result, db') => (.answered (.ok ⟨result.applied, result.refunded⟩), db')
  | (.error e, db') =>
      if e.status ≠ 503 then (.answered (.error e), db')
      else
        (.queued (.entry requestId identity.userId identity.tokenId (.ofInt 0)) ⟨false, 0⟩, db')

/-- The durable hold already exists, so a charge that cannot be settled is kept
in the shared store for replay. -/
def finalizeQuota (identity : Identity) (requestId : String) (actual : JsNumber) (now : Int)
    (commit : Commit) (db : LedgerDb) : Deferred SettleResult × LedgerDb :=
  match quotaAmount actual "charge" with
  | .error e => (.answered (.error e), db)
  | .ok _ =>
      match complete identity requestId actual (kindOf actual) now commit db with
      | (.ok result, db') => (.answered (.ok result.toSettleResult), db')
      | (.error e, db') =>
          if e.status ≠ 503 then (.answered (.error e), db')
          else
            (.queued (.entry requestId identity.userId identity.tokenId actual) ⟨false, 0⟩, db')

/-- What `flushQuotaSettlements` does with one parsed entry. -/
def replayItem (item : QueueItem) (now : Int) (commit : Commit) (db : LedgerDb) :
    Except Thrown Completion × LedgerDb :=
  match item with
  | .corrupt => (.error .fault, db)
  | .entry requestId userId tokenId actual =>
      if requestId = "" ∨ userId = "" ∨ tokenId = "" then (.error (.gateway ledgerUnavailable), db)
      else
        let (result, db') :=
          complete ⟨userId, tokenId⟩ requestId actual (kindOf actual) now commit db
        (result.mapError Thrown.gateway, db')

end Gateway
