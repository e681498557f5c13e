import Gateway.Lib.Collection

/-!
The documents the quota ledger reads and writes.

Dates are milliseconds since the epoch. Profile fields, rate limits and the
credential fields of a token are left out: no ledger operation reads them.
-/

namespace Gateway

inductive EntityStatus where
  | enabled
  | disabled
  | deleted
deriving DecidableEq, Repr

structure UserDoc where
  id : String
  status : EntityStatus
  quota : Int
  quotaLedgerVersion : Option Nat
  usedQuota : Int
  requestCount : Nat
  updatedAt : Int
deriving DecidableEq, Repr

structure TokenDoc where
  id : String
  userId : String
  status : EntityStatus
  quota : Int
  quotaLedgerVersion : Option Nat
  usedQuota : Int
  unlimitedQuota : Bool
  expiresAt : Option Int
  updatedAt : Int
deriving DecidableEq, Repr

inductive RedemptionStatus where
  | unused
  | used
  | disabled
deriving DecidableEq, Repr

structure RedemptionCodeDoc where
  id : String
  codeDigest : String
  quota : Int
  status : RedemptionStatus
  usedBy : Option String
  usedAt : Option Int
  expiresAt : Option Int
deriving DecidableEq, Repr

inductive JournalKind where
  | reserve
  | settle
  | release
  | adjust
deriving DecidableEq, Repr

inductive JournalState where
  | pending
  | applied
  | failed
deriving DecidableEq, Repr

structure QuotaJournalDoc where
  id : String
  requestId : String
  kind : JournalKind
  userId : String
  tokenId : String
  amount : Int
  reserved : Int
  state : JournalState
  createdAt : Int
  appliedAt : Option Int
  expiresAt : Option Int
  tokenLimited : Bool
deriving DecidableEq, Repr

instance : Document UserDoc String := ⟨UserDoc.id⟩

instance : Document TokenDoc String := ⟨TokenDoc.id⟩

instance : Document RedemptionCodeDoc String := ⟨RedemptionCodeDoc.id⟩

instance : Document QuotaJournalDoc String := ⟨QuotaJournalDoc.id⟩

@[simp]
theorem UserDoc.key_eq (d : UserDoc) : Document.key d = d.id := rfl

@[simp]
theorem TokenDoc.key_eq (d : TokenDoc) : Document.key d = d.id := rfl

@[simp]
theorem RedemptionCodeDoc.key_eq (d : RedemptionCodeDoc) : Document.key d = d.id := rfl

@[simp]
theorem QuotaJournalDoc.key_eq (d : QuotaJournalDoc) : Document.key d = d.id := rfl

/-- The four collections the ledger's transactions run over. -/
structure LedgerDb where
  users : Collection UserDoc
  tokens : Collection TokenDoc
  journal : Collection QuotaJournalDoc
  codes : Collection RedemptionCodeDoc

end Gateway
