import Gateway.Quota.System

/-!
Conservation of money in the ledger.

A balance, what was spent of it and what is on hold move together: over any run
the three only grow, together, by redeemed codes. The holds are sums over the
journal, so each step lemma says how one step moves the sum and the balances,
and the run theorem is a telescope.
-/

namespace Gateway

open QuotaSystem

/-- What the pending rows that match hold back. -/
def held (db : LedgerDb) (p : QuotaJournalDoc → Bool) : Int :=
  db.journal.total (fun row => if p row = true ∧ row.IsPending then row.reserved else 0)

def ofUser (userId : String) (row : QuotaJournalDoc) : Bool := row.userId == userId

/-- The rows of a token: `complete` finds it by its id and its owner. -/
def ofToken (tokenId userId : String) (row : QuotaJournalDoc) : Bool :=
  row.tokenId == tokenId && row.userId == userId

/-- The redeemed value: the sum of the codes marked used by the user. -/
def redeemed (db : LedgerDb) (userId : String) : Int :=
  db.codes.total (fun code =>
    if code.status = .used ∧ code.usedBy = some userId then code.quota else 0)

def userWorth (db : LedgerDb) (user : UserDoc) : Int :=
  user.quota + user.usedQuota + held db (ofUser user.id)

def tokenWorth (db : LedgerDb) (token : TokenDoc) : Int :=
  token.quota + token.usedQuota + held db (ofToken token.id token.userId)

theorem held_reserve {db : LedgerDb} {row : QuotaJournalDoc}
    (fresh : db.journal.find (Document.key row) = none) (pending : row.IsPending)
    (p : QuotaJournalDoc → Bool) {users : Collection UserDoc} {tokens : Collection TokenDoc} :
    held { db with users := users, tokens := tokens, journal := db.journal.insertFresh row fresh } p =
      held db p + if p row then row.reserved else 0 := by
  simp only [held, Collection.total_insertFresh, pending, and_true]

theorem held_complete {db : LedgerDb} {row : QuotaJournalDoc} {kind : CompletionKind}
    {charge now : Int} (stored : db.journal.find row.id = some row) (pending : row.IsPending)
    {p : QuotaJournalDoc → Bool} {users : Collection UserDoc} {tokens : Collection TokenDoc} :
    held { db with
      users := users
      tokens := tokens
      journal := db.journal.modify row.id (applyReservation kind charge now) } p =
      held db p - if p row then row.reserved else 0 := by
  have moved := Collection.total_modify stored (applyReservation kind charge now)
    (fun row => if p row = true ∧ row.IsPending then row.reserved else 0)
  have settled : ¬((applyReservation kind charge now).apply row).IsPending := nofun
  simp only [pending, settled, and_true, and_false, if_false, add_zero] at moved
  simp only [held]
  omega

/-- Only a redemption touches the codes, and only a completion or a reservation
the journal. -/
theorem redeemed_redeem {db : LedgerDb} {code : RedemptionCodeDoc} {user : UserDoc} {now : Int}
    (stored : db.codes.find code.id = some code) (unused : code.status = .unused)
    (userId : String) {users : Collection UserDoc} :
    redeemed { db with users := users, codes := db.codes.modify code.id (claimCode user.id now) }
        userId =
      redeemed db userId + if user.id = userId then code.quota else 0 := by
  have moved := Collection.total_modify stored (claimCode user.id now)
    (fun code => if code.status = .used ∧ code.usedBy = some userId then code.quota else 0)
  simpa only [redeemed, claimCode, unused, Option.some.injEq, true_and, reduceCtorEq, false_and,
    if_false, add_zero] using moved

/-- Between two ledgers the user is kept and its worth grows by the codes it
redeemed in between. -/
def UserConserved (userId : String) (db db' : LedgerDb) : Prop :=
  ∀ user, db.users.find userId = some user → ∃ user', db'.users.find userId = some user' ∧
    userWorth db' user' = userWorth db user + (redeemed db' userId - redeemed db userId)

theorem userConserved_refl (userId : String) (db : LedgerDb) : UserConserved userId db db :=
  fun user found => ⟨user, found, by omega⟩

theorem userConserved_trans {userId : String} {db db' db'' : LedgerDb}
    (first : UserConserved userId db db') (second : UserConserved userId db' db'') :
    UserConserved userId db db'' := by
  intro user found
  obtain ⟨user', found', worth'⟩ := first user found
  obtain ⟨user'', found'', worth''⟩ := second user' found'
  exact ⟨user'', found'', by omega⟩

theorem userConserved_step (userId : String) {db db' : LedgerDb} {m : LedgerMove}
    (h : LedgerStep db m db') : UserConserved userId db db' := by
  intro user found
  have id : user.id = userId := Collection.key_of_find found
  subst id
  cases h with
  | reserve debited token row now fresh account key owned positive userCovers tokenCovers pending
      rowUser rowToken =>
      refine ⟨_, Collection.find_modify_some found debited.id _, ?_⟩
      simp only [userWorth, held_reserve fresh pending, ofUser, rowUser]
      by_cases same : user.id = debited.id
      · simp [same, debitUser, redeemed]
        omega
      · simp [same, Ne.symm same, redeemed]
  | complete payer row kind charge now stored pending account nonneg =>
      refine ⟨_, Collection.find_modify_some found row.userId _, ?_⟩
      simp only [userWorth, held_complete stored pending, ofUser]
      by_cases same : user.id = row.userId
      · simp [same, completeUser, redeemed]
        omega
      · simp [same, Ne.symm same, redeemed]
  | redeem redeemer code now account stored unused nonneg =>
      refine ⟨_, Collection.find_modify_some found redeemer.id _, ?_⟩
      simp only [userWorth, redeemed_redeem stored unused]
      by_cases same : user.id = redeemer.id
      · simp [same, creditUser, held]
        omega
      · simp [same, Ne.symm same, held]
  | updateToken tokenId unlimited now =>
      exact ⟨user, found, by simp [userWorth, held, redeemed, updateToken]⟩
  | deleteToken tokenId =>
      exact ⟨user, found, by simp [userWorth, held, redeemed, deleteToken]⟩

/-- The terms of a reservation are fixed when it is taken. -/
def SameTerms (row row' : QuotaJournalDoc) : Prop :=
  row'.id = row.id ∧ row'.userId = row.userId ∧ row'.tokenId = row.tokenId ∧
    row'.tokenLimited = row.tokenLimited ∧ row'.reserved = row.reserved

/-- No row is ever removed from the journal and none changes its terms. -/
def JournalKept (db db' : LedgerDb) : Prop :=
  ∀ row ∈ db.journal.docs, ∃ row' ∈ db'.journal.docs, SameTerms row row'

theorem journalKept_refl (db : LedgerDb) : JournalKept db db :=
  fun row stored => ⟨row, stored, rfl, rfl, rfl, rfl, rfl⟩

theorem journalKept_trans {db db' db'' : LedgerDb} (first : JournalKept db db')
    (second : JournalKept db' db'') : JournalKept db db'' := by
  intro row stored
  obtain ⟨row', stored', id', user', token', limited', reserved'⟩ := first row stored
  obtain ⟨row'', stored'', id'', user'', token'', limited'', reserved''⟩ := second row' stored'
  exact ⟨row'', stored'', id''.trans id', user''.trans user', token''.trans token',
    limited''.trans limited', reserved''.trans reserved'⟩

theorem journalKept_step {db db' : LedgerDb} {m : LedgerMove} (h : LedgerStep db m db') :
    JournalKept db db' := by
  cases h with
  | reserve user token row now fresh =>
      exact fun old stored => ⟨old, List.mem_append_left _ stored, rfl, rfl, rfl, rfl, rfl⟩
  | complete user row kind charge now =>
      refine fun old stored => ⟨_, List.mem_map_of_mem stored, ?_⟩
      split <;> exact ⟨rfl, rfl, rfl, rfl, rfl⟩
  | redeem => exact journalKept_refl db
  | updateToken => exact journalKept_refl db
  | deleteToken => exact journalKept_refl db

/-- Every reservation taken through the token debited it. -/
def AlwaysLimited (db : LedgerDb) (token : TokenDoc) : Prop :=
  ∀ row ∈ db.journal.docs, ofToken token.id token.userId row = true → row.tokenLimited = true

/-- A token that is still there, and was debited by all of its reservations,
was there before with the same owner and the same worth. -/
def TokenConserved (tokenId : String) (db db' : LedgerDb) : Prop :=
  ∀ token', db'.tokens.find tokenId = some token' → AlwaysLimited db' token' →
    ∃ token, db.tokens.find tokenId = some token ∧ token.userId = token'.userId ∧
      tokenWorth db' token' = tokenWorth db token

theorem tokenConserved_refl (tokenId : String) (db : LedgerDb) : TokenConserved tokenId db db :=
  fun token' found _ => ⟨token', found, rfl, rfl⟩

theorem alwaysLimited_before {db db' : LedgerDb} (kept : JournalKept db db')
    {token token' : TokenDoc} (id : token.id = token'.id) (owner : token.userId = token'.userId)
    (limited : AlwaysLimited db' token') : AlwaysLimited db token := by
  intro row stored belongs
  obtain ⟨row', stored', _, user', key', limited', _⟩ := kept row stored
  rw [← limited']
  refine limited row' stored' ?_
  simpa only [ofToken, user', key', ← id, ← owner] using belongs

theorem tokenConserved_trans {tokenId : String} {db db' db'' : LedgerDb}
    (kept : JournalKept db' db'') (first : TokenConserved tokenId db db')
    (second : TokenConserved tokenId db' db'') : TokenConserved tokenId db db'' := by
  intro token'' found'' limited
  obtain ⟨token', found', owner', worth'⟩ := second token'' found'' limited
  have id : token'.id = token''.id :=
    (Collection.key_of_find found').trans (Collection.key_of_find found'').symm
  obtain ⟨token, found, owner, worth⟩ :=
    first token' found' (alwaysLimited_before kept id owner' limited)
  exact ⟨token, found, owner.trans owner', worth'.trans worth⟩

theorem tokenConserved_step (tokenId : String) {db db' : LedgerDb} {m : LedgerMove}
    (h : LedgerStep db m db') : TokenConserved tokenId db db' := by
  intro token' found' limited
  cases h with
  | reserve user debited row now fresh account key owned positive userCovers tokenCovers pending
      rowUser rowToken =>
      have stored : row ∈ (db.journal.insertFresh row fresh).docs :=
        List.mem_append_right _ List.mem_cons_self
      cases isLimited : row.tokenLimited with
      | true =>
          simp only [isLimited, if_true] at found'
          obtain ⟨token, found, rfl⟩ := Collection.find_modify_inv found'
          have id : token.id = tokenId := Collection.key_of_find found
          subst id
          refine ⟨token, found, by split <;> rfl, ?_⟩
          simp only [tokenWorth, held_reserve fresh pending, ofToken, rowUser, rowToken]
          by_cases same : token.id = debited.id
          · cases (same ▸ key).symm.trans found
            simp [debitToken, owned]
            omega
          · simp [same, Ne.symm same]
      | false =>
          simp only [isLimited, Bool.false_eq_true, if_false] at found'
          refine ⟨token', found', rfl, ?_⟩
          have elsewhere : ofToken token'.id token'.userId row = false := by
            rw [← Bool.not_eq_true]
            intro belongs
            exact Bool.false_ne_true (isLimited.symm.trans (limited row stored belongs))
          simp [tokenWorth, held_reserve fresh pending, elsewhere]
  | complete user row kind charge now stored pending account nonneg =>
      obtain ⟨token, found, rfl⟩ := Collection.find_updateOne_inv found'
      have id : token.id = tokenId := Collection.key_of_find found
      subst id
      refine ⟨token, found, by split <;> rfl, ?_⟩
      simp only [tokenWorth, held_complete stored pending]
      by_cases belongs : token.id = row.tokenId ∧ (token.userId == row.userId) = true
      · rw [if_pos belongs] at limited ⊢
        have mine : ofToken token.id token.userId row = true := by
          simp [ofToken, belongs.1, beq_iff_eq.mp belongs.2]
        have settled : (applyReservation kind charge now).apply row ∈
            (db.journal.modify row.id (applyReservation kind charge now)).docs :=
          List.mem_map.mpr ⟨row, (Collection.mem_of_find stored).1, if_pos rfl⟩
        have isLimited : row.tokenLimited = true :=
          limited ((applyReservation kind charge now).apply row) settled mine
        simp only [completeToken, isLimited, mine, if_true]
        omega
      · have elsewhere : ofToken token.id token.userId row = false := by
          simp only [beq_iff_eq, not_and] at belongs
          simp only [ofToken, Bool.and_eq_false_imp, beq_iff_eq, beq_eq_false_iff_ne]
          exact fun key owner => belongs key.symm owner.symm
        simp only [if_neg belongs, elsewhere, Bool.false_eq_true, if_false, Int.sub_zero]
  | redeem => exact ⟨token', found', rfl, rfl⟩
  | updateToken key unlimited now =>
      obtain ⟨token, found, rfl⟩ := Collection.find_updateOne_inv found'
      refine ⟨token, found, ?_, ?_⟩ <;> split <;> rfl
  | deleteToken key =>
      simp only [deleteToken, Collection.find_deleteOne] at found'
      split at found'
      · cases found'
      · exact ⟨token', found', rfl, rfl⟩

/-- The code is marked used. -/
def isUsed (db : LedgerDb) (codeId : String) : Bool :=
  (db.codes.find codeId).any (fun code => code.status == .used)

theorem isUsed_step {db db' : LedgerDb} {m : LedgerMove} (h : LedgerStep db m db')
    {codeId : String} (used : isUsed db codeId = true) : isUsed db' codeId = true := by
  cases h with
  | reserve | complete | updateToken | deleteToken => exact used
  | redeem user code now account stored unused nonneg =>
      simp only [isUsed, Option.any_eq_true] at used ⊢
      obtain ⟨old, found, marked⟩ := used
      refine ⟨_, Collection.find_modify_some found code.id _, ?_⟩
      split
      · rfl
      · exact marked

/-- The action claims the code: it is not used before it and used after it. -/
def claims (codeId : String) (e : Machine.Event State Action Reply) : Bool :=
  !isUsed e.before.db codeId && isUsed e.after.db codeId

theorem claims_at_most_once (codeDigestFor : String → String) (codeId : String) (s : State)
    (as : List Action) :
    (Machine.trace (step codeDigestFor) s as).countP (claims codeId) ≤ 1 := by
  refine Machine.trace_countP_le_one (claims codeId) (fun t => isUsed t.db codeId = true)
    ?_ ?_ ?_ s as
  · intro t a used
    cases step_accounted codeDigestFor t a with
    | inl same => exact same.1 ▸ used
    | inr moved =>
        obtain ⟨m, _, moved, _⟩ := moved
        exact isUsed_step moved used
  · intro t a claimed
    simp only [claims, Bool.and_eq_true] at claimed
    exact claimed.2
  · intro t a used
    simp only [claims, used, Bool.not_true, Bool.false_and]

/-- Conservation of the ledger. Over any run, in any order and with any faults,
every user's balance, spend and holds together grow by exactly the codes it
redeems, no code is claimed twice, and a token that all of its reservations
debit keeps its balance, spend and holds together. -/
theorem ledger_conservation (codeDigestFor : String → String) (s : State) (as : List Action) :
    let final := (Machine.run (step codeDigestFor) s as).db
    (∀ userId user, s.db.users.find userId = some user →
      ∃ user', final.users.find userId = some user' ∧
        user'.quota + user'.usedQuota + held final (ofUser userId) =
          user.quota + user.usedQuota + held s.db (ofUser userId) +
            (redeemed final userId - redeemed s.db userId)) ∧
    (∀ codeId, (Machine.trace (step codeDigestFor) s as).countP (claims codeId) ≤ 1) ∧
    (∀ tokenId token', final.tokens.find tokenId = some token' → AlwaysLimited final token' →
      ∃ token, s.db.tokens.find tokenId = some token ∧
        token'.quota + token'.usedQuota + held final (ofToken tokenId token'.userId) =
          token.quota + token.usedQuota + held s.db (ofToken tokenId token.userId)) := by
  refine ⟨?_, fun codeId => claims_at_most_once codeDigestFor codeId s as, ?_⟩
  · intro userId user found
    have conserved := run_ledger_related (userConserved_refl userId)
      (fun _ _ _ => userConserved_trans) (fun _ _ _ => userConserved_step userId)
      codeDigestFor s as
    obtain ⟨user', found', worth⟩ := conserved user found
    refine ⟨user', found', ?_⟩
    have id : user.id = userId := Collection.key_of_find found
    have id' : user'.id = userId := Collection.key_of_find found'
    simpa only [userWorth, id, id'] using worth
  · intro tokenId token' found' limited
    have conserved := run_ledger_related
      (R := fun db db' => JournalKept db db' ∧ TokenConserved tokenId db db')
      (fun db => ⟨journalKept_refl db, tokenConserved_refl tokenId db⟩)
      (fun _ _ _ first second => ⟨journalKept_trans first.1 second.1,
        tokenConserved_trans second.1 first.2 second.2⟩)
      (fun _ _ _ moved => ⟨journalKept_step moved, tokenConserved_step tokenId moved⟩)
      codeDigestFor s as
    obtain ⟨token, found, owner, worth⟩ := conserved.2 token' found' limited
    refine ⟨token, found, ?_⟩
    have id : token.id = tokenId := Collection.key_of_find found
    have id' : token'.id = tokenId := Collection.key_of_find found'
    simpa only [tokenWorth, id, id'] using worth

end Gateway
