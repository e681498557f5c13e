import Gateway.Db.Types

/-!
The operator's edits of a token that run beside the ledger: the switch between
a limited and an unlimited budget, and the deletion of a key. The rest of
`updateToken` is not covered here.
-/

namespace Gateway

def setUnlimited (unlimited : Bool) (now : Int) : Update TokenDoc where
  apply d := { d with unlimitedQuota := unlimited, updatedAt := now }
  key_apply _ := rfl

/-- `updateToken` with a patch of `unlimitedQuota` only. -/
def updateToken (tokenId : String) (unlimited : Bool) (now : Int) (db : LedgerDb) : LedgerDb :=
  { db with tokens := db.tokens.updateOne tokenId (fun _ => true) (setUnlimited unlimited now) }

def deleteToken (tokenId : String) (db : LedgerDb) : LedgerDb :=
  { db with tokens := db.tokens.deleteOne tokenId }

end Gateway
