import Gateway.Quota.Ledger
import Gateway.Admin.Catalog
import Gateway.Admin.Store

/-!
What one transaction can do to the ledger.

`LedgerStep` says it once, with every guard the code has checked by the time it
commits; the inversion lemmas below derive it from the bodies. Invariants of the
ledger are case analyses on `LedgerStep` and never unfold a body.
-/

namespace Gateway

open Transaction

inductive LedgerMove where
  | reserve (requestId : String)
  | complete (requestId : String) (charge : Int)
  | redeem (codeId : String)
  | updateToken (tokenId : String)
  | deleteToken (tokenId : String)
deriving DecidableEq, Repr

/-- The row is a live hold. -/
def QuotaJournalDoc.IsPending (row : QuotaJournalDoc) : Prop := row.state = .pending

instance (row : QuotaJournalDoc) : Decidable row.IsPending :=
  inferInstanceAs (Decidable (row.state = .pending))

inductive LedgerStep (db : LedgerDb) : LedgerMove → LedgerDb → Prop where
  | reserve (user : UserDoc) (token : TokenDoc) (row : QuotaJournalDoc) (now : Int)
      (fresh : db.journal.find (Document.key row) = none)
      (account : db.users.find user.id = some user)
      (key : db.tokens.find token.id = some token)
      (owned : token.userId = user.id)
      (positive : 0 < row.reserved)
      (userCovers : row.reserved ≤ user.quota)
      (tokenCovers : row.tokenLimited = true → row.reserved ≤ token.quota)
      (pending : row.IsPending)
      (rowUser : row.userId = user.id)
      (rowToken : row.tokenId = token.id) :
      LedgerStep db (.reserve row.id)
        { db with
          users := db.users.modify user.id (debitUser row.reserved now)
          tokens :=
            if row.tokenLimited then db.tokens.modify token.id (debitToken row.reserved now)
            else db.tokens
          journal := db.journal.insertFresh row fresh }
  | complete (user : UserDoc) (row : QuotaJournalDoc) (kind : CompletionKind) (charge now : Int)
      (stored : db.journal.find row.id = some row)
      (pending : row.IsPending)
      (account : db.users.find row.userId = some user)
      (nonneg : 0 ≤ charge) :
      LedgerStep db (.complete row.id charge)
        { db with
          users := db.users.modify row.userId (completeUser kind (row.reserved - charge) charge now)
          tokens := db.tokens.updateOne row.tokenId (fun t => t.userId == row.userId)
            (completeToken row.tokenLimited (row.reserved - charge) charge)
          journal := db.journal.modify row.id (applyReservation kind charge now) }
  | redeem (user : UserDoc) (code : RedemptionCodeDoc) (now : Int)
      (account : db.users.find user.id = some user)
      (stored : db.codes.find code.id = some code)
      (unused : code.status = .unused)
      (nonneg : 0 ≤ code.quota) :
      LedgerStep db (.redeem code.id)
        { db with
          users := db.users.modify user.id (creditUser code.quota now)
          codes := db.codes.modify code.id (claimCode user.id now) }
  | updateToken (tokenId : String) (unlimited : Bool) (now : Int) :
      LedgerStep db (.updateToken tokenId) (updateToken tokenId unlimited now db)
  | deleteToken (tokenId : String) :
      LedgerStep db (.deleteToken tokenId) (deleteToken tokenId db)

theorem quotaAmount_ok {value : JsNumber} {field : String} {n : Nat}
    (h : quotaAmount value field = .ok n) :
    ∃ q : ℚ, value = .finite q ∧ 0 ≤ q ∧ (n : Int) = ⌈q⌉ ∧ isSafeInteger n = true := by
  cases value with
  | finite q =>
      simp only [quotaAmount] at h
      split at h
      · contradiction
      · next accepted =>
          cases h
          simp only [not_or, not_lt, Bool.not_eq_false] at accepted
          have toNat : ((⌈q⌉.toNat : Nat) : Int) = ⌈q⌉ :=
            Int.toNat_of_nonneg (Int.ceil_nonneg accepted.1)
          exact ⟨q, rfl, accepted.1, toNat, toNat ▸ accepted.2⟩
  | nan => contradiction
  | infinity => contradiction
  | negInfinity => contradiction

theorem quotaAmount_ofInt {k : Int} {field : String} {n : Nat}
    (h : quotaAmount (.ofInt k) field = .ok n) : (n : Int) = k := by
  obtain ⟨q, hq, _, hn, _⟩ := quotaAmount_ok h
  simp only [JsNumber.ofInt, JsNumber.finite.injEq] at hq
  rw [hn, ← hq, Int.ceil_intCast]

theorem quotaAmount_natCast {n : Nat} (safe : n ≤ maxSafeInteger) (field : String) :
    quotaAmount (.ofInt n) field = .ok n := by
  have isSafe : isSafeInteger (n : Int) = true := by simpa [isSafeInteger] using safe
  simp [quotaAmount, JsNumber.ofInt, isSafe]

theorem debitLimited_eq_some {token : TokenDoc} {need now : Int}
    {tokens tokens' : Collection TokenDoc} (key : tokens.find token.id = some token)
    (h : debitLimited token need now tokens = some tokens') :
    (token.unlimitedQuota = false → need ≤ token.quota) ∧
      tokens' = if !token.unlimitedQuota then tokens.modify token.id (debitToken need now)
        else tokens := by
  rw [debitLimited] at h
  cases unlimited : token.unlimitedQuota with
  | true =>
      simp only [unlimited, if_true, Option.some.injEq] at h
      exact ⟨fun limited => absurd limited (by simp), by simp [h]⟩
  | false =>
      simp only [unlimited, Bool.false_eq_true, if_false, Option.map_eq_some_iff] at h
      obtain ⟨⟨d', c'⟩, debited, rfl⟩ := h
      obtain ⟨d, found, guard, _, rfl⟩ := Collection.findOneAndUpdate_eq_some debited
      cases key.symm.trans found
      exact ⟨fun _ => (of_decide_eq_true guard).2, by simp⟩

theorem isPending_of_isReplay {identity : Identity} {need now : Int} {row : QuotaJournalDoc}
    (h : isReplay identity need now row = true) : row.IsPending := by
  simp only [isReplay, Bool.and_eq_true, beq_iff_eq] at h
  exact h.1.1.1.2

/-- A reservation that returns replays a live hold or takes a fresh one. -/
theorem reserveWork_cases {identity : Identity} {requestId : String} {need now : Int}
    {db db' : LedgerDb} {result : ReserveResult} (positive : 0 < need)
    (h : reserveWork identity requestId need now db = (.ok result, db')) :
    (db' = db ∧ ∃ row, db.journal.find requestId = some row ∧ row.IsPending) ∨
      LedgerStep db (.reserve requestId) db' := by
  rw [reserveWork] at h
  split at h
  · next existing stored =>
      split at h
      · next replay =>
          cases h
          exact .inl ⟨rfl, existing, stored, isPending_of_isReplay replay⟩
      · cases h
  · next fresh =>
      split at h
      · next user token account owned =>
          split at h
          · cases h
          split at h
          · cases h
          split at h
          · cases h
          split at h
          · cases h
          split at h
          · cases h
          next debited users debit =>
          split at h
          · cases h
          next tokens tokenDebit =>
          split at h
          · cases h
          next journal inserted =>
          cases h
          obtain ⟨key, owner⟩ := Collection.findOne_eq_some_iff.mp owned
          have userId : user.id = identity.userId := Collection.key_of_find account
          have tokenId : token.id = identity.tokenId := Collection.key_of_find key
          rw [← userId] at account
          rw [← tokenId] at key
          obtain ⟨user', found, guard, _, rfl⟩ := Collection.findOneAndUpdate_eq_some debit
          cases account.symm.trans found
          obtain ⟨covers, rfl⟩ := debitLimited_eq_some key tokenDebit
          obtain ⟨unique, rfl⟩ := Collection.insertOne_eq_some inserted
          refine .inr (.reserve user token (reservation requestId user.id token.id
            (!token.unlimitedQuota) need now) now unique account key
            ((beq_iff_eq.mp owner).trans userId.symm) positive (of_decide_eq_true guard).2
            ?_ rfl rfl rfl)
          intro limited
          exact covers (by simpa [reservation] using limited)
      · cases h

theorem completeWork_cases {identity : Identity} {requestId : String} {charge now : Int}
    {kind : CompletionKind} {db db' : LedgerDb} {result : Completion} (nonneg : 0 ≤ charge)
    (h : completeWork identity requestId charge kind now db = (.ok result, db')) :
    (db' = db ∧ result.applied = false) ∨
      (result.applied = true ∧ LedgerStep db (.complete requestId charge) db') := by
  rw [completeWork] at h
  split at h
  · cases h
    exact .inl ⟨rfl, rfl⟩
  · next row stored =>
      split at h
      · cases h
        exact .inl ⟨rfl, rfl⟩
      · next notSettled =>
          have pending : row.IsPending := not_not.mp notSettled
          split at h
          · cases h
          next user account =>
          simp only at h
          split at h
          · cases h
          split at h
          · cases h
          next updated users update =>
          cases h
          obtain ⟨found, owner⟩ := Collection.findOne_eq_some_iff.mp stored
          simp only [Bool.and_eq_true, beq_iff_eq] at owner
          have rowId : row.id = requestId := Collection.key_of_find found
          have userId : user.id = identity.userId := Collection.key_of_find account
          obtain ⟨_, _, _, _, rfl⟩ := Collection.findOneAndUpdate_eq_some update
          rw [Collection.updateOne_of_match (fun r => r.state == .pending) _ found
            (beq_iff_eq.mpr (show row.state = .pending from pending))]
          subst rowId
          rw [← owner.1] at account userId ⊢
          rw [← owner.2, userId]
          exact .inr ⟨rfl, .complete user row kind charge now found pending account nonneg⟩

theorem redeemWork_cases {digest userId : String} {now : Int} {db db' : LedgerDb}
    {result : RedeemResult} (h : redeemWork digest userId now db = (.ok result, db')) :
    ∃ codeId, LedgerStep db (.redeem codeId) db' := by
  rw [redeemWork] at h
  split at h
  · cases h
  next user active =>
  split at h
  · cases h
  split at h
  · cases h
  next code claimable =>
  simp only at h
  split at h
  · cases h
  next credit amount =>
  split at h
  · cases h
  split at h
  · cases h
  next updated users update =>
  cases h
  have account := (Collection.findOne_eq_some_iff.mp active).1
  have id : user.id = userId := Collection.key_of_find account
  obtain ⟨_, _, _, _, rfl⟩ := Collection.findOneAndUpdate_eq_some update
  have stored : db.codes.find code.id = some code :=
    Collection.find_of_mem (List.mem_of_find?_eq_some claimable)
  have unused := List.find?_some claimable
  simp only [isClaimable, Bool.and_eq_true, beq_iff_eq] at unused
  have credited : (credit : Int) = code.quota := quotaAmount_ofInt amount
  rw [← id] at account
  rw [← id, credited]
  exact ⟨code.id, .redeem user code now account stored unused.1.2 (credited ▸ Int.natCast_nonneg credit)⟩

end Gateway
