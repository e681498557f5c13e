import Gateway.Quota.Ledger

/-!
Redemption of codes: a code is claimed for a user and its quota credited in one
transaction. The digest of a code is an argument, and so is the answer of the
attempt limiter.
-/

namespace Gateway

open Transaction

/-- The check of a required text field. -/
def name (value field : String) (max : Nat) : Except GatewayError String :=
  if jsTrim value = "" then .error (invalidParam (field ++ " is required") field)
  else if max < jsLength value then .error (invalidParam (field ++ " is too long") field)
  else .ok (jsTrim value)

structure RedeemResult where
  quota : Int
  balance : Int
deriving DecidableEq, Repr

def claimCode (userId : String) (now : Int) : Update RedemptionCodeDoc where
  apply d := { d with status := .used, usedBy := some userId, usedAt := some now }
  key_apply _ := rfl

def creditUser (credit now : Int) : Update UserDoc where
  apply d := { d with quota := d.quota + credit, updatedAt := now }
  key_apply _ := rfl

/-- The filter of the claim: an unused code that has not expired. -/
def isClaimable (digest : String) (now : Int) (code : RedemptionCodeDoc) : Bool :=
  code.codeDigest == digest && code.status == .unused && !hasPassed code.expiresAt now

def codeNotValid : GatewayError := invalidParam "that code is not valid" "code"

/-- The body of the transaction of `redeemCode`. -/
def redeemWork (digest userId : String) (now : Int) (db : LedgerDb) :
    Except Thrown RedeemResult × LedgerDb :=
  match db.users.findOne userId (fun u => u.status == .enabled) with
  | none =>
      (.error (.gateway (invalidRequest
        "this account must be active and its quota ledger upgraded")), db)
  | some user =>
      if isUpgraded user.quotaLedgerVersion = false then
        (.error (.gateway (invalidRequest
          "this account must be active and its quota ledger upgraded")), db)
      else
        match db.codes.findWhere (isClaimable digest now) with
        | none => (.error (.gateway codeNotValid), db)
        | some code =>
            let claimed := (claimCode userId now).apply code
            let codes := db.codes.modify code.id (claimCode userId now)
            match quotaAmount (.ofInt claimed.quota) "quota" with
            | .error e => (.error (.gateway e), { db with codes := codes })
            | .ok credit =>
                if isSafeInteger (user.quota + credit) = false then
                  (.error (.gateway (invalidRequest "account balance is too large")),
                    { db with codes := codes })
                else
                  match db.users.findOneAndUpdate userId (fun _ => true)
                      (creditUser credit now) with
                  | none =>
                      (.error (.gateway (invalidRequest "account not found")),
                        { db with codes := codes })
                  | some (updated, users) =>
                      (.ok ⟨credit, updated.quota⟩, { db with users := users, codes := codes })

def redeemCode (codeDigestFor : String → String) (attempts : Except Thrown Unit)
    (rawCode userId : String) (now : Int) (commit : Commit) (db : LedgerDb) :
    Except Thrown RedeemResult × LedgerDb :=
  match name rawCode "code" 64 with
  | .error e => (.error (.gateway e), db)
  | .ok trimmed =>
      match attempts with
      | .error e => (.error e, db)
      | .ok () =>
          atomically .fault commit
            (redeemWork (codeDigestFor (toUpperAlnum trimmed)) userId now) db

end Gateway
