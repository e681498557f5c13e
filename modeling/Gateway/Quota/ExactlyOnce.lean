import Gateway.Quota.Conservation

/-!
Exactly-once settlement.

The journal row is the anchor: a completion needs it pending and leaves it
applied, and nothing leads back. Everything else, whatever path or how many
times a completion arrives, follows from what one step does to that row.
-/

namespace Gateway

open QuotaSystem

def isPendingIn (db : LedgerDb) (requestId : String) : Bool :=
  (db.journal.find requestId).any (fun row => decide row.IsPending)

/-- The request is past its hold. -/
def IsClosed (db : LedgerDb) (requestId : String) : Prop :=
  ∃ row, db.journal.find requestId = some row ∧ ¬row.IsPending

/-- What the applied rows that match have charged. -/
def spent (db : LedgerDb) (p : QuotaJournalDoc → Bool) : Int :=
  db.journal.total (fun row => if p row = true ∧ row.state = .applied then row.amount else 0)

/-- The caller of the action is told that its completion of the request was
the one applied. -/
def reportsApplied (requestId : String) (e : Machine.Event State Action Reply) : Bool :=
  (completionCall e.before e.action).any (fun call => call.requestId == requestId) &&
    e.reply.applied

/-- The journal row of the request leaves `pending` in the action. -/
def completes (requestId : String) (e : Machine.Event State Action Reply) : Bool :=
  isPendingIn e.before.db requestId && !isPendingIn e.after.db requestId

/-- What became of a row in one step: nothing, or it was completed, once, at
the charge of the move, which its owner's spend grew by. -/
theorem row_step {db db' : LedgerDb} {m : LedgerMove} (h : LedgerStep db m db')
    {requestId : String} {row : QuotaJournalDoc}
    (found : db.journal.find requestId = some row) :
    db'.journal.find requestId = some row ∨
      (row.IsPending ∧ ∃ charge kind now user, m = .complete requestId charge ∧
        db'.journal.find requestId = some ((applyReservation kind charge now).apply row) ∧
        db.users.find row.userId = some user ∧
        db'.users.find row.userId =
          some ((completeUser kind (row.reserved - charge) charge now).apply user)) := by
  cases h with
  | reserve user token other now fresh =>
      refine .inl ?_
      have taken : requestId ≠ Document.key other := by
        rintro rfl
        exact nomatch fresh.symm.trans found
      simp only [Collection.find_insertFresh, taken, if_false, found]
  | complete user other kind charge now stored pending account nonneg =>
      by_cases same : requestId = other.id
      · subst same
        cases stored.symm.trans found
        refine .inr ⟨pending, charge, kind, now, user, rfl, ?_, account, ?_⟩
        · simp only [Collection.find_modify_some stored, if_true]
        · simp only [Collection.find_modify_some account, if_true]
      · refine .inl ?_
        simp only [Collection.find_modify_some found, same, if_false]
  | redeem | updateToken | deleteToken => exact .inl found

theorem closed_step {db db' : LedgerDb} {m : LedgerMove} (h : LedgerStep db m db')
    {requestId : String} {row : QuotaJournalDoc}
    (found : db.journal.find requestId = some row) (closed : ¬row.IsPending) :
    db'.journal.find requestId = some row :=
  (row_step h found).resolve_right fun completed => closed completed.1

theorem isPendingIn_iff {db : LedgerDb} {requestId : String} :
    isPendingIn db requestId = true ↔
      ∃ row, db.journal.find requestId = some row ∧ row.IsPending := by
  simp [isPendingIn, Option.any_eq_true]

theorem isClosed_not_pending {db : LedgerDb} {requestId : String} (h : IsClosed db requestId) :
    isPendingIn db requestId = false := by
  obtain ⟨row, found, closed⟩ := h
  simp [isPendingIn, found, closed]

theorem isClosed_preserved (codeDigestFor : String → String) (requestId : String) (s : State)
    (a : Action) (h : IsClosed s.db requestId) :
    IsClosed (step codeDigestFor s a).1.db requestId := by
  obtain ⟨row, found, closed⟩ := h
  cases step_accounted codeDigestFor s a with
  | inl same => exact same.1 ▸ ⟨row, found, closed⟩
  | inr moved =>
      obtain ⟨m, _, moved, _⟩ := moved
      exact ⟨row, closed_step moved found closed, closed⟩

/-- One completion of a request: the row, the charge its caller passed and the
spend of its owner before and after. -/
def CompletedAt (requestId : String) (before after : LedgerDb) (actual : JsNumber) : Prop :=
  ∃ row row' user user', ∃ charge : Nat,
    quotaAmount actual "charge" = .ok charge ∧
    before.journal.find requestId = some row ∧ row.IsPending ∧
    after.journal.find requestId = some row' ∧
    row'.state = .applied ∧ row'.amount = charge ∧ row'.userId = row.userId ∧
    before.users.find row.userId = some user ∧
    after.users.find row.userId = some user' ∧
    user'.usedQuota = user.usedQuota + charge

theorem completedAt_of_completes (codeDigestFor : String → String) {requestId : String}
    {e : Machine.Event State Action Reply}
    (executed : step codeDigestFor e.before e.action = (e.after, e.reply))
    (h : completes requestId e = true) :
    ∃ actual, completionCall e.before e.action = some ⟨requestId, actual⟩ ∧
      CompletedAt requestId e.before.db e.after.db actual ∧ IsClosed e.after.db requestId := by
  simp only [completes, Bool.and_eq_true, Bool.not_eq_true', isPendingIn_iff] at h
  obtain ⟨⟨row, found, pending⟩, left⟩ := h
  have accounted := step_accounted codeDigestFor e.before e.action
  rw [executed] at accounted
  cases accounted with
  | inl same =>
      rw [same.1, ← Bool.not_eq_true, isPendingIn_iff] at left
      exact absurd ⟨row, found, pending⟩ left
  | inr moved =>
      obtain ⟨m, requested, moved, _⟩ := moved
      cases row_step moved found with
      | inl kept =>
          rw [← Bool.not_eq_true, isPendingIn_iff] at left
          exact absurd ⟨row, kept, pending⟩ left
      | inr completed =>
          obtain ⟨_, charge, kind, now, user, rfl, found', account, account'⟩ := completed
          obtain ⟨actual, call, n, amount, rfl⟩ := requested
          refine ⟨actual, call, ⟨row, _, user, _, n, amount, found, pending, found', rfl, rfl, rfl,
            account, account', rfl⟩, _, found', fun pending => by cases pending⟩

theorem complete_step {db db' : LedgerDb} {requestId : String} {charge : Int}
    (h : LedgerStep db (.complete requestId charge) db') :
    isPendingIn db requestId = true ∧ IsClosed db' requestId := by
  cases h with
  | complete user row kind charge now stored pending account nonneg =>
      exact ⟨isPendingIn_iff.mpr ⟨row, stored, pending⟩, _,
        Collection.find_modify_some stored row.id _, by simp [applyReservation, QuotaJournalDoc.IsPending]⟩

/-- Whoever is told that its completion applied, completed the request. -/
theorem completes_of_reportsApplied (codeDigestFor : String → String) {requestId : String}
    {e : Machine.Event State Action Reply}
    (executed : step codeDigestFor e.before e.action = (e.after, e.reply))
    (h : reportsApplied requestId e = true) : completes requestId e = true := by
  simp only [reportsApplied, Bool.and_eq_true, Option.any_eq_true, beq_iff_eq] at h
  obtain ⟨⟨call, hcall, rfl⟩, applied⟩ := h
  have accounted := step_accounted codeDigestFor e.before e.action
  rw [executed] at accounted
  cases accounted with
  | inl same => exact absurd applied (by simp [same.2])
  | inr moved =>
      obtain ⟨m, requested, moved, only⟩ := moved
      obtain ⟨requestId, charge, rfl⟩ := only applied
      obtain ⟨actual, call', _⟩ := requested
      cases hcall.symm.trans call'
      have completed := complete_step moved
      simp [completes, completed.1, isClosed_not_pending completed.2]

/-- A request past its hold is refused a new one. -/
theorem reserve_refused (codeDigestFor : String → String) {s : State} {requestId : String}
    (closed : IsClosed s.db requestId) (degraded : Bool) (identity : Identity)
    (amount : JsNumber) (now : Int) (commit : Commit) :
    ∃ error, (step codeDigestFor s
      (.reserve degraded identity requestId amount now commit)).2 = .reserved (.error error) := by
  obtain ⟨row, found, settled⟩ := closed
  have refused (need : Int) :
      reserveWork identity requestId need now s.db = (.error reservationReused, s.db) := by
    have noReplay : isReplay identity need now row = false :=
      Bool.eq_false_iff.mpr fun replay => settled (isPending_of_isReplay replay)
    simp only [reserveWork, found, noReplay, Bool.false_eq_true, if_false]
  simp only [step, reserveQuota]
  split
  · exact ⟨_, rfl⟩
  split
  · exact ⟨_, rfl⟩
  split
  · exact ⟨_, rfl⟩
  next need _ _ =>
  simp only [transaction, Transaction.atomically, refused]
  cases commit <;> exact ⟨_, rfl⟩

/-- Between two ledgers the spend of the user grows by what its rows charged. -/
def SpendTracked (userId : String) (db db' : LedgerDb) : Prop :=
  ∀ user, db.users.find userId = some user → ∃ user', db'.users.find userId = some user' ∧
    user'.usedQuota = user.usedQuota + (spent db' (ofUser userId) - spent db (ofUser userId))

theorem spendTracked_refl (userId : String) (db : LedgerDb) : SpendTracked userId db db :=
  fun user found => ⟨user, found, by omega⟩

theorem spendTracked_trans {userId : String} {db db' db'' : LedgerDb}
    (first : SpendTracked userId db db') (second : SpendTracked userId db' db'') :
    SpendTracked userId db db'' := by
  intro user found
  obtain ⟨user', found', spend'⟩ := first user found
  obtain ⟨user'', found'', spend''⟩ := second user' found'
  exact ⟨user'', found'', by omega⟩

theorem spendTracked_step (userId : String) {db db' : LedgerDb} {m : LedgerMove}
    (h : LedgerStep db m db') : SpendTracked userId db db' := by
  intro user found
  have id : user.id = userId := Collection.key_of_find found
  subst id
  cases h with
  | reserve debited token row now fresh account key owned positive userCovers tokenCovers pending
      rowUser rowToken =>
      refine ⟨_, Collection.find_modify_some found debited.id _, ?_⟩
      have unsettled : row.state ≠ .applied := by simp [show row.state = .pending from pending]
      simp only [spent, Collection.total_insertFresh, unsettled, and_false, if_false]
      split <;> simp [debitUser]
  | complete payer row kind charge now stored pending account nonneg =>
      refine ⟨_, Collection.find_modify_some found row.userId _, ?_⟩
      have moved := Collection.total_modify stored (applyReservation kind charge now)
        (fun row => if ofUser user.id row = true ∧ row.state = .applied then row.amount else 0)
      have unsettled : row.state ≠ .applied := by simp [show row.state = .pending from pending]
      simp only [unsettled, and_false, if_false, add_zero] at moved
      simp only [spent, moved]
      by_cases same : user.id = row.userId
      · simp [same, ofUser, applyReservation, completeUser]
      · simp [same, Ne.symm same, ofUser, applyReservation]
  | redeem redeemer code now account stored unused nonneg =>
      refine ⟨_, Collection.find_modify_some found redeemer.id _, ?_⟩
      simp only [spent]
      split <;> simp [creditUser]
  | updateToken => exact spendTracked_refl _ db user found
  | deleteToken => exact spendTracked_refl _ db user found

theorem completes_at_most_once (codeDigestFor : String → String) (requestId : String) (s : State)
    (as : List Action) :
    (Machine.trace (step codeDigestFor) s as).countP (completes requestId) ≤ 1 := by
  refine Machine.trace_countP_le_one (completes requestId) (fun t => IsClosed t.db requestId)
    (isClosed_preserved codeDigestFor requestId) ?_ ?_ s as
  · intro t a completed
    obtain ⟨_, _, _, closed⟩ :=
      completedAt_of_completes codeDigestFor (e := ⟨t, a, _, _⟩) rfl completed
    exact closed
  · intro t a closed
    simp [completes, isClosed_not_pending closed]

/-- Exactly-once settlement. Over any run, at most one action on a request
reports that it applied and at most one completes it; the one that completes it
charges its owner what its caller passed; a request that is past its hold stays
as it is and is refused a new one; and what a user has spent is the sum of what
its requests were charged. -/
theorem settlement_exactly_once (codeDigestFor : String → String) (requestId : String) (s : State)
    (as : List Action) :
    let final := (Machine.run (step codeDigestFor) s as).db
    let trace := Machine.trace (step codeDigestFor) s as
    trace.countP (reportsApplied requestId) ≤ 1 ∧
    trace.countP (completes requestId) ≤ 1 ∧
    (∀ e ∈ trace, reportsApplied requestId e = true → completes requestId e = true) ∧
    (∀ e ∈ trace, completes requestId e = true →
      ∃ actual, completionCall e.before e.action = some ⟨requestId, actual⟩ ∧
        CompletedAt requestId e.before.db e.after.db actual) ∧
    (∀ e ∈ trace, ∀ row, e.before.db.journal.find requestId = some row → ¬row.IsPending →
      e.after.db.journal.find requestId = some row ∧
      ∀ degraded identity amount now commit,
        e.action = .reserve degraded identity requestId amount now commit →
          ∃ error, e.reply = .reserved (.error error)) ∧
    (∀ userId user, s.db.users.find userId = some user →
      ∃ user', final.users.find userId = some user' ∧
        user'.usedQuota =
          user.usedQuota + (spent final (ofUser userId) - spent s.db (ofUser userId))) := by
  have once := completes_at_most_once codeDigestFor requestId s as
  refine ⟨(List.countP_mono_left ?_).trans once, once, ?_, ?_, ?_, ?_⟩
  · intro e mem reported
    exact completes_of_reportsApplied codeDigestFor (Machine.mem_trace mem).1 reported
  · intro e mem reported
    exact completes_of_reportsApplied codeDigestFor (Machine.mem_trace mem).1 reported
  · intro e mem completed
    obtain ⟨actual, call, charged, _⟩ :=
      completedAt_of_completes codeDigestFor (Machine.mem_trace mem).1 completed
    exact ⟨actual, call, charged⟩
  · intro e mem row found closed
    have executed := (Machine.mem_trace mem).1
    refine ⟨?_, fun degraded identity amount now commit reserve => ?_⟩
    · have accounted := step_accounted codeDigestFor e.before e.action
      rw [executed] at accounted
      cases accounted with
      | inl same => exact same.1 ▸ found
      | inr moved =>
          obtain ⟨m, _, moved, _⟩ := moved
          exact closed_step moved found closed
    · rw [reserve] at executed
      obtain ⟨error, refused⟩ :=
        reserve_refused codeDigestFor ⟨row, found, closed⟩ degraded identity amount now commit
      exact ⟨error, by rw [executed] at refused; exact refused⟩
  · intro userId user found
    exact run_ledger_related (spendTracked_refl userId) (fun _ _ _ => spendTracked_trans)
      (fun _ _ _ => spendTracked_step userId) codeDigestFor s as user found

end Gateway
