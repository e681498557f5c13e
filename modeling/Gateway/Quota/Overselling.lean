import Gateway.Quota.Conservation
import Mathlib.Algebra.Order.BigOperators.Group.List

/-!
No overselling: how far below zero a balance can go.

A hold is only taken from a balance that covers it, so the only way down is a
charge above its hold. The potential below, the negative part of the balance
plus the overage settled so far, never decreases; that one inequality per step
is the whole argument.
-/

namespace Gateway

open QuotaSystem

/-- What the settled rows that match charged beyond their holds. -/
def overage (db : LedgerDb) (p : QuotaJournalDoc → Bool) : Int :=
  db.journal.total (fun row =>
    if p row = true ∧ ¬row.IsPending then max 0 (row.amount - row.reserved) else 0)

/-- The rows that debited a token. -/
def debitedToken (tokenId userId : String) (row : QuotaJournalDoc) : Bool :=
  ofToken tokenId userId row && row.tokenLimited

theorem overage_reserve {db : LedgerDb} {row : QuotaJournalDoc}
    (fresh : db.journal.find (Document.key row) = none) (pending : row.IsPending)
    (p : QuotaJournalDoc → Bool) {users : Collection UserDoc} {tokens : Collection TokenDoc} :
    overage { db with
      users := users, tokens := tokens, journal := db.journal.insertFresh row fresh } p =
      overage db p := by
  simp only [overage, Collection.total_insertFresh, pending, not_true, and_false, if_false,
    add_zero]

theorem overage_complete {db : LedgerDb} {row : QuotaJournalDoc} {kind : CompletionKind}
    {charge now : Int} (stored : db.journal.find row.id = some row) (pending : row.IsPending)
    (p : QuotaJournalDoc → Bool)
    (stable : p ((applyReservation kind charge now).apply row) = p row)
    {users : Collection UserDoc} {tokens : Collection TokenDoc} :
    overage { db with
      users := users
      tokens := tokens
      journal := db.journal.modify row.id (applyReservation kind charge now) } p =
      overage db p + if p row then max 0 (charge - row.reserved) else 0 := by
  have moved := Collection.total_modify stored (applyReservation kind charge now)
    (fun row => if p row = true ∧ ¬row.IsPending then max 0 (row.amount - row.reserved) else 0)
  have settled : ¬((applyReservation kind charge now).apply row).IsPending := nofun
  simp only [pending, settled, stable, not_true, not_false_eq_true, and_true, and_false, if_false,
    add_zero] at moved
  exact moved

theorem overage_nonneg (db : LedgerDb) (p : QuotaJournalDoc → Bool) : 0 ≤ overage db p := by
  refine List.sum_nonneg ?_
  intro x hx
  obtain ⟨row, _, rfl⟩ := List.mem_map.mp hx
  split
  · exact le_max_left 0 _
  · exact le_refl 0

/-- Without a charge above its hold there is no overage. -/
theorem overage_eq_zero {db : LedgerDb} {p : QuotaJournalDoc → Bool}
    (within : ∀ row ∈ db.journal.docs, p row = true → ¬row.IsPending →
      row.amount ≤ row.reserved) : overage db p = 0 := by
  refine List.sum_eq_zero ?_
  intro x hx
  obtain ⟨row, stored, rfl⟩ := List.mem_map.mp hx
  split
  · next settled => exact max_eq_left (by have := within row stored settled.1 settled.2; omega)
  · rfl

/-- The potential of a balance: it never decreases. -/
def potential (quota : Int) (db : LedgerDb) (p : QuotaJournalDoc → Bool) : Int :=
  min quota 0 + overage db p

def UserCovered (userId : String) (db db' : LedgerDb) : Prop :=
  ∀ user, db.users.find userId = some user → ∃ user', db'.users.find userId = some user' ∧
    potential user.quota db (ofUser userId) ≤ potential user'.quota db' (ofUser userId)

theorem userCovered_refl (userId : String) (db : LedgerDb) : UserCovered userId db db :=
  fun user found => ⟨user, found, le_refl _⟩

theorem userCovered_trans {userId : String} {db db' db'' : LedgerDb}
    (first : UserCovered userId db db') (second : UserCovered userId db' db'') :
    UserCovered userId db db'' := by
  intro user found
  obtain ⟨user', found', covered'⟩ := first user found
  obtain ⟨user'', found'', covered''⟩ := second user' found'
  exact ⟨user'', found'', covered'.trans covered''⟩

theorem userCovered_step (userId : String) {db db' : LedgerDb} {m : LedgerMove}
    (h : LedgerStep db m db') : UserCovered userId db db' := by
  intro user found
  have id : user.id = userId := Collection.key_of_find found
  subst id
  cases h with
  | reserve debited token row now fresh account key owned positive userCovers tokenCovers pending
      rowUser rowToken =>
      refine ⟨_, Collection.find_modify_some found debited.id _, ?_⟩
      simp only [potential, overage_reserve fresh pending]
      by_cases same : user.id = debited.id
      · cases (same ▸ account).symm.trans found
        simp only [if_true, debitUser]
        omega
      · simp only [same, if_false, le_refl]
  | complete payer row kind charge now stored pending account nonneg =>
      refine ⟨_, Collection.find_modify_some found row.userId _, ?_⟩
      simp only [potential, overage_complete stored pending (ofUser user.id) rfl, ofUser]
      by_cases same : user.id = row.userId
      · simp only [same, if_true, completeUser, beq_self_eq_true]
        omega
      · simp [same, Ne.symm same]
  | redeem redeemer code now account stored unused nonneg =>
      refine ⟨_, Collection.find_modify_some found redeemer.id _, ?_⟩
      simp only [potential, overage]
      split
      · simp only [creditUser]
        omega
      · exact le_refl _
  | updateToken => exact userCovered_refl _ db user found
  | deleteToken => exact userCovered_refl _ db user found

/-- A token that is still there was there before, under the same owner, with a
potential no higher. -/
def TokenCovered (tokenId : String) (db db' : LedgerDb) : Prop :=
  ∀ token', db'.tokens.find tokenId = some token' →
    ∃ token, db.tokens.find tokenId = some token ∧ token.userId = token'.userId ∧
      potential token.quota db (debitedToken tokenId token.userId) ≤
        potential token'.quota db' (debitedToken tokenId token'.userId)

theorem tokenCovered_refl (tokenId : String) (db : LedgerDb) : TokenCovered tokenId db db :=
  fun token' found => ⟨token', found, rfl, le_refl _⟩

theorem tokenCovered_trans {tokenId : String} {db db' db'' : LedgerDb}
    (first : TokenCovered tokenId db db') (second : TokenCovered tokenId db' db'') :
    TokenCovered tokenId db db'' := by
  intro token'' found''
  obtain ⟨token', found', owner', covered'⟩ := second token'' found''
  obtain ⟨token, found, owner, covered⟩ := first token' found'
  exact ⟨token, found, owner.trans owner', covered.trans covered'⟩

theorem tokenCovered_step (tokenId : String) {db db' : LedgerDb} {m : LedgerMove}
    (h : LedgerStep db m db') : TokenCovered tokenId db db' := by
  intro token' found'
  cases h with
  | reserve user debited row now fresh account key owned positive userCovers tokenCovers pending
      rowUser rowToken =>
      simp only [potential, overage_reserve fresh pending]
      cases isLimited : row.tokenLimited with
      | true =>
          simp only [isLimited, if_true] at found'
          obtain ⟨token, found, rfl⟩ := Collection.find_modify_inv found'
          refine ⟨token, found, by split <;> rfl, ?_⟩
          by_cases same : tokenId = debited.id
          · cases (same ▸ key).symm.trans found
            have covers := tokenCovers isLimited
            simp only [same, if_true, debitToken]
            omega
          · simp only [same, if_false, le_refl]
      | false =>
          simp only [isLimited, Bool.false_eq_true, if_false] at found'
          exact ⟨token', found', rfl, le_refl _⟩
  | complete user row kind charge now stored pending account nonneg =>
      obtain ⟨token, found, rfl⟩ := Collection.find_updateOne_inv found'
      refine ⟨token, found, by split <;> rfl, ?_⟩
      simp only [potential, overage_complete stored pending (debitedToken tokenId _) rfl]
      by_cases belongs : tokenId = row.tokenId ∧ (token.userId == row.userId) = true
      · have mine : debitedToken tokenId token.userId row = row.tokenLimited := by
          simp [debitedToken, ofToken, belongs.1, beq_iff_eq.mp belongs.2]
        rw [if_pos belongs]
        cases isLimited : row.tokenLimited with
        | true =>
            simp only [completeToken, mine, isLimited, if_true]
            omega
        | false =>
            simp only [completeToken, mine, isLimited, Bool.false_eq_true, if_false, add_zero,
              le_refl]
      · rw [if_neg belongs]
        have grows : (0 : Int) ≤
            if debitedToken tokenId token.userId row = true then max 0 (charge - row.reserved)
            else 0 := by
          split
          · exact le_max_left 0 _
          · exact le_refl 0
        omega
  | redeem => exact tokenCovered_refl tokenId db token' found'
  | updateToken key unlimited now =>
      obtain ⟨token, found, rfl⟩ := Collection.find_updateOne_inv found'
      refine ⟨token, found, by split <;> rfl, ?_⟩
      split <;> exact le_refl _
  | deleteToken key =>
      simp only [deleteToken, Collection.find_deleteOne] at found'
      split at found'
      · cases found'
      · exact tokenCovered_refl tokenId db token' found'

/-- A reservation that throws has not taken anything, unless the store lost the
acknowledgement of a commit. -/
theorem reserveQuota_error {degraded : Bool} {identity : Identity} {requestId : String}
    {amount : JsNumber} {now : Int} {commit : Commit} {db : LedgerDb} {e : GatewayError}
    (acknowledged : commit ≠ .unacknowledged)
    (thrown : (reserveQuota degraded identity requestId amount now commit db).1 = .error e) :
    (reserveQuota degraded identity requestId amount now commit db).2 = db := by
  unfold reserveQuota at thrown ⊢
  split
  · rfl
  · next healthy =>
      simp only [healthy] at thrown
      split
      · rfl
      · next need amount =>
          simp only [amount] at thrown
          split
          · rfl
          · next valid =>
              simp only [valid, if_false] at thrown
              exact Transaction.atomically_error acknowledged thrown

/-- A potential that did not decrease bounds the balance from below. -/
theorem covered_balance {quota quota' : Int} {db db' : LedgerDb} {p p' : QuotaJournalDoc → Bool}
    (covered : potential quota db p ≤ potential quota' db' p') (nonneg : 0 ≤ quota) :
    -(overage db' p' - overage db p) ≤ quota' := by
  simp only [potential] at covered
  omega

theorem covered_nonneg {quota quota' : Int} {db db' : LedgerDb} {p p' : QuotaJournalDoc → Bool}
    (covered : potential quota db p ≤ potential quota' db' p') (nonneg : 0 ≤ quota)
    (within : ∀ row ∈ db'.journal.docs, p' row = true → ¬row.IsPending →
      row.amount ≤ row.reserved) : 0 ≤ quota' := by
  have bounded := covered_balance covered nonneg
  have settled := overage_eq_zero within
  have before := overage_nonneg db p
  omega

end Gateway
