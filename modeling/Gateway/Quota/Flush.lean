import Gateway.Quota.System

/-!
The replay of the settlement queue.

A run peeks a batch, applies its entries one transaction after the other and
acknowledges the batch as a whole; an entry that throws ends the run before the
acknowledgement. What an entry does depends on the balances and the terms of
the reservations only, so the runs are analysed over these books; timestamps
drop out.
-/

namespace Gateway

/-- `for (const item of raw)`: the entries in order, until one throws. -/
def replayAll (now : Int) : List QueueItem → LedgerDb → Except Thrown Unit × LedgerDb
  | [], db => (.ok (), db)
  | item :: items, db =>
      match replayItem item now .committed db with
      | (.ok _, db') => replayAll now items db'
      | (.error e, db') => (.error e, db')

/-- `Math.max(1, Math.min(1000, limit))` -/
def batchSize (limit : Int) : Nat := (max 1 (min 1000 limit)).toNat

/-- A run that obtains the lock and meets no storage failure. -/
def flushQuotaSettlements (limit now : Int) (s : LedgerDb × List QueueItem) :
    Except Thrown Nat × LedgerDb × List QueueItem :=
  let raw := s.2.take (batchSize limit)
  if raw.isEmpty then (.ok 0, s)
  else
    match replayAll now raw s.1 with
    | (.ok (), db) => (.ok raw.length, db, s.2.drop raw.length)
    | (.error e, db) => (.error e, db, s.2)

/-- Run after run, each with its reading of the clock. -/
def flushRuns (limit : Int) (clock : Nat → Int) : Nat → LedgerDb × List QueueItem →
    LedgerDb × List QueueItem
  | 0, s => s
  | n + 1, s => flushRuns limit (fun k => clock (k + 1)) n (flushQuotaSettlements limit (clock 0) s).2

namespace QuotaSystem

/-- A worker with nothing left to do answers nothing. -/
theorem run_replays_done (codeDigestFor : String → String) (worker : String) (now : Int) (n : Nat)
    {s : State} (done : ∀ raw item jobs, s.queue.workers worker ≠ .working raw (item :: jobs)) :
    Machine.run (step codeDigestFor) s (List.replicate n (.replay worker now .committed)) = s := by
  induction n with
  | zero => rfl
  | succ n ih =>
      have silent : replayNext worker now .committed s = (s, .silent) := by
        rw [replayNext]
        split
        · next raw item jobs working => exact absurd working (done raw item jobs)
        · rfl
      rw [List.replicate_succ, Machine.run_cons]
      simp only [step, silent]
      exact ih

/-- A worker that replays its copy entry by entry ends where the loop ends. -/
theorem run_replays (codeDigestFor : String → String) (worker : String) (now : Int)
    (jobs : List QueueItem) {s : State} {raw : List QueueItem}
    (working : s.queue.workers worker = .working raw jobs) :
    let final := Machine.run (step codeDigestFor) s
      (List.replicate jobs.length (.replay worker now .committed))
    final.db = (replayAll now jobs s.db).2 ∧ final.queue.items = s.queue.items ∧
      final.queue.lock = s.queue.lock ∧
      final.queue.workers worker =
        match (replayAll now jobs s.db).1 with
        | .ok () => .working raw []
        | .error _ => .releasing := by
  induction jobs generalizing s with
  | nil => exact ⟨rfl, rfl, rfl, working⟩
  | cons item jobs ih =>
      simp only [List.length_cons, List.replicate_succ, Machine.run_cons, step, replayNext,
        working, replayAll]
      cases replayed : replayItem item now .committed s.db with
      | mk outcome db =>
          cases outcome with
          | ok result =>
              have advanced : (s.queue.advance worker).workers worker = .working raw jobs := by
                simp [LeasedQueue.State.advance, working, LeasedQueue.State.setWorker]
              have moved := ih (s := ⟨db, s.queue.advance worker⟩) advanced
              simpa [LeasedQueue.State.advance, working, LeasedQueue.State.setWorker] using moved
          | error e =>
              have left : (s.queue.abandon worker).workers worker = .releasing := by
                simp [LeasedQueue.State.abandon, working, LeasedQueue.State.setWorker]
              simp only
              rw [run_replays_done codeDigestFor worker now _ (by simp [left])]
              simp [LeasedQueue.State.abandon, working, LeasedQueue.State.setWorker]

/-- A flush run is one worker's share of the system: acquire, peek, replay the
copy, acknowledge, release. -/
theorem flush_actions (codeDigestFor : String → String) (worker : String) (limit now : Int)
    {s : State} (free : s.queue.lock = none) (idle : s.queue.workers worker = .idle) :
    let raw := s.queue.items.take (batchSize limit)
    let final := Machine.run (step codeDigestFor) s
      ([.queue (.acquire worker), .queue (.peek worker (batchSize limit))] ++
        List.replicate raw.length (.replay worker now .committed) ++
        [.queue (.acknowledge worker), .queue (.release worker)])
    (final.db, final.queue.items) =
      (flushQuotaSettlements limit now (s.db, s.queue.items)).2 := by
  intro raw final
  have peeked := @LeasedQueue.acquire_peek String QueueItem QueueItem _ id _ worker free idle
    (batchSize limit)
  obtain ⟨items, lock, phase⟩ := peeked
  change _ = if raw.isEmpty then LeasedQueue.Phase.releasing else .working raw raw at phase
  simp only [final, Machine.run_append, Machine.run_cons, Machine.run_nil, step,
    LeasedQueue.State.apply]
  generalize hq : (s.queue.acquire worker).peek id worker (batchSize limit) = q at *
  cases empty : raw.isEmpty with
  | true =>
      have none_left : raw.length = 0 := by simpa using empty
      simp only [empty, if_true] at phase
      rw [none_left]
      simp only [List.replicate_zero, Machine.run_nil, LeasedQueue.State.acknowledge, phase,
        LeasedQueue.State.release]
      simp only [flushQuotaSettlements, raw] at empty ⊢
      simp [empty, items, LeasedQueue.State.setWorker]
  | false =>
      simp only [empty, Bool.false_eq_true, if_false] at phase
      obtain ⟨ledger, items', lock', phase'⟩ :=
        run_replays codeDigestFor worker now raw (s := ⟨s.db, q⟩) phase
      generalize hr : Machine.run (step codeDigestFor) ⟨s.db, q⟩
        (List.replicate raw.length (.replay worker now .committed)) = r at *
      have whole : flushQuotaSettlements limit now (s.db, s.queue.items) =
          match replayAll now raw s.db with
          | (.ok (), db) => (.ok raw.length, db, s.queue.items.drop raw.length)
          | (.error e, db) => (.error e, db, s.queue.items) := by
        simp only [flushQuotaSettlements]
        rw [if_neg (by simp [raw] at empty ⊢; exact empty)]
      rw [whole]
      cases outcome : replayAll now raw s.db with
      | mk result db =>
          rw [outcome] at ledger phase'
          cases result with
          | ok _ =>
              simp only at phase' ledger
              simp [LeasedQueue.State.acknowledge, phase', lock', lock, LeasedQueue.State.release,
                LeasedQueue.State.setWorker, ledger, items', items]
          | error e =>
              simp only at phase' ledger
              simp [LeasedQueue.State.acknowledge, phase', LeasedQueue.State.release,
                LeasedQueue.State.setWorker, ledger, items', items]

end QuotaSystem

structure Account where
  quota : Int
  usedQuota : Int
deriving DecidableEq, Repr

/-- What a completion reads of a reservation. -/
structure Terms where
  userId : String
  tokenId : String
  reserved : Int
  pending : Bool
deriving DecidableEq, Repr

/-- The ledger as far as completions depend on it. -/
@[ext]
structure Books where
  accounts : String → Option Account
  reservations : String → Option Terms

def UserDoc.account (d : UserDoc) : Account := ⟨d.quota, d.usedQuota⟩

def QuotaJournalDoc.terms (d : QuotaJournalDoc) : Terms :=
  ⟨d.userId, d.tokenId, d.reserved, decide d.IsPending⟩

def books (db : LedgerDb) : Books where
  accounts userId := (db.users.find userId).map UserDoc.account
  reservations requestId := (db.journal.find requestId).map QuotaJournalDoc.terms

/-- The completed sums are safe integers. -/
def Account.admits (account : Account) (reserved charge : Int) : Bool :=
  isSafeInteger (account.quota + (reserved - charge)) && isSafeInteger (account.usedQuota + charge)

def Account.complete (account : Account) (reserved charge : Int) : Account :=
  ⟨account.quota + (reserved - charge), account.usedQuota + charge⟩

/-- The reservation is a live hold of this user and this key. -/
def Terms.isOpenFor (terms : Terms) (userId tokenId : String) : Bool :=
  terms.userId == userId && terms.tokenId == tokenId && terms.pending

def Books.complete (b : Books) (requestId : String) (terms : Terms) (account : Account)
    (charge : Int) : Books where
  accounts := Function.update b.accounts terms.userId (some (account.complete terms.reserved charge))
  reservations := Function.update b.reservations requestId (some { terms with pending := false })

/-- A completion over the books: nothing when it throws. -/
def Books.settle (b : Books) (identity : Identity) (requestId : String) (charge : Int) :
    Option Books :=
  match (b.reservations requestId).filter
      (fun terms => terms.isOpenFor identity.userId identity.tokenId) with
  | none => some b
  | some terms =>
      match b.accounts identity.userId with
      | none => none
      | some account =>
          if account.admits terms.reserved charge then
            some (b.complete requestId terms account charge)
          else none

/-- One entry of the queue over the books: nothing when it throws. -/
def Books.replay (b : Books) : QueueItem → Option Books
  | .corrupt => none
  | .entry requestId userId tokenId actual =>
      if requestId = "" ∨ userId = "" ∨ tokenId = "" then none
      else
        match quotaAmount actual "charge" with
        | .error _ => none
        | .ok charge => b.settle ⟨userId, tokenId⟩ requestId charge

/-- An entry that can be completed on its own: well-formed, its reservation
pending, the owner present and the sums within the safe integers. -/
def Completable (b : Books) : QueueItem → Prop
  | .corrupt => False
  | .entry requestId userId tokenId actual =>
      requestId ≠ "" ∧ userId ≠ "" ∧ tokenId ≠ "" ∧
        ∃ charge : Nat, ∃ terms account, quotaAmount actual "charge" = .ok charge ∧
          b.reservations requestId = some terms ∧ terms.isOpenFor userId tokenId = true ∧
          b.accounts userId = some account ∧ account.admits terms.reserved charge = true

/-- No completable entry stands behind one that throws. -/
def ClearOfPoison (b : Books) : List QueueItem → Prop
  | [] => True
  | item :: items =>
      match b.replay item with
      | some b' => ClearOfPoison b' items
      | none => ∀ later ∈ items, ¬Completable b later

theorem books_complete {db : LedgerDb} {row : QuotaJournalDoc} {user : UserDoc}
    {kind : CompletionKind} {charge now : Int} {tokens : Collection TokenDoc}
    (stored : db.journal.find row.id = some row) (account : db.users.find row.userId = some user) :
    books { db with
      users := db.users.modify row.userId (completeUser kind (row.reserved - charge) charge now)
      tokens := tokens
      journal := db.journal.modify row.id (applyReservation kind charge now) } =
      (books db).complete row.id row.terms user.account charge := by
  ext1
  · funext userId
    by_cases same : userId = row.userId
    · subst same
      simp only [books, Books.complete, Collection.find_modify_some account, if_true]
      simp [QuotaJournalDoc.terms, UserDoc.account, Account.complete, completeUser]
    · simp [books, Books.complete, Collection.find_modify, same, QuotaJournalDoc.terms]
  · funext requestId
    by_cases same : requestId = row.id
    · subst same
      simp only [books, Books.complete, Collection.find_modify_some stored, if_true]
      simp [QuotaJournalDoc.terms, applyReservation, QuotaJournalDoc.IsPending]
    · simp [books, Books.complete, Collection.find_modify, same]

/-- The hold a completion finds, by the code and in the books. -/
theorem books_open (db : LedgerDb) (identity : Identity) (requestId : String) :
    ((books db).reservations requestId).filter
        (fun terms => terms.isOpenFor identity.userId identity.tokenId) =
      ((db.journal.findOne requestId
        (fun r => r.userId == identity.userId && r.tokenId == identity.tokenId)).filter
          (fun r => decide r.IsPending)).map QuotaJournalDoc.terms := by
  simp only [books, Collection.findOne]
  cases db.journal.find requestId with
  | none => rfl
  | some row =>
      by_cases matched : (row.userId == identity.userId && row.tokenId == identity.tokenId) = true
      · by_cases pending : row.IsPending <;>
          simp [Option.filter_some, Terms.isOpenFor, QuotaJournalDoc.terms, matched, pending]
      · simp only [Bool.not_eq_true] at matched
        simp [Option.filter_some, Terms.isOpenFor, QuotaJournalDoc.terms, matched]

theorem account_admits_eq_false {user : UserDoc} {reserved charge : Int} :
    user.account.admits reserved charge = false ↔
      isSafeInteger (user.quota + (reserved - charge)) = false ∨
        isSafeInteger (user.usedQuota + charge) = false :=
  Bool.and_eq_false_iff

/-- The transaction on a live hold whose owner admits the charge. -/
theorem completeWork_applied {identity : Identity} {charge : Int} {kind : CompletionKind}
    {now : Int} {db : LedgerDb} {row : QuotaJournalDoc} {user : UserDoc}
    (stored : db.journal.findOne row.id
      (fun r => r.userId == identity.userId && r.tokenId == identity.tokenId) = some row)
    (pending : row.IsPending) (account : db.users.find row.userId = some user)
    (admitted : user.account.admits row.reserved charge = true) :
    completeWork identity row.id charge kind now db =
      (.ok ⟨⟨true, user.quota + (row.reserved - charge)⟩,
          if kind = .release then row.reserved else 0⟩,
        { db with
          users := db.users.modify row.userId (completeUser kind (row.reserved - charge) charge now)
          tokens := db.tokens.updateOne identity.tokenId (fun t => t.userId == identity.userId)
            (completeToken row.tokenLimited (row.reserved - charge) charge)
          journal := db.journal.modify row.id (applyReservation kind charge now) }) := by
  obtain ⟨found, owner⟩ := Collection.findOne_eq_some_iff.mp stored
  simp only [Bool.and_eq_true, beq_iff_eq] at owner
  obtain ⟨userId, tokenId⟩ := identity
  obtain ⟨rfl, rfl⟩ := owner
  have live : row.state = .pending := pending
  have id : user.id = row.userId := Collection.key_of_find account
  have safe : ¬(isSafeInteger (user.quota + (row.reserved - charge)) = false ∨
      isSafeInteger (user.usedQuota + charge) = false) := by
    rw [← account_admits_eq_false, admitted]
    exact Bool.noConfusion
  have debit := Collection.findOneAndUpdate_of_match (fun _ => true)
    (completeUser kind (row.reserved - charge) charge now) account rfl
  have settle := Collection.updateOne_of_match (fun r => r.state == .pending)
    (applyReservation kind charge now) found (beq_iff_eq.mpr live)
  simp only [completeWork, stored, live, ne_eq, not_true, if_false, account, safe, id, debit,
    settle]
  rfl

/-- The transaction of a completion is one step over the books: it returns
where they have a next state and throws where they have none. -/
theorem completeWork_books (identity : Identity) (requestId : String) (charge : Int)
    (kind : CompletionKind) (now : Int) (db : LedgerDb) :
    (∃ result db', completeWork identity requestId charge kind now db = (.ok result, db') ∧
        (books db).settle identity requestId charge = some (books db')) ∨
      (∃ e db', completeWork identity requestId charge kind now db = (.error e, db') ∧
        (books db).settle identity requestId charge = none) := by
  simp only [Books.settle, books_open]
  cases stored : db.journal.findOne requestId
      (fun r => r.userId == identity.userId && r.tokenId == identity.tokenId) with
  | none =>
      exact .inl ⟨⟨⟨false, balanceOf db identity.userId⟩, 0⟩, db,
        by simp only [completeWork, stored], rfl⟩
  | some row =>
      by_cases pending : row.IsPending
      · have live : row.state = .pending := pending
        simp only [Option.filter_some, pending, decide_true, if_true, Option.map_some]
        cases account : db.users.find identity.userId with
        | none =>
            refine .inr ⟨ledgerUnavailable, db, ?_, by simp only [books, account, Option.map_none]⟩
            simp only [completeWork, stored, live, ne_eq, not_true, if_false, account]
        | some user =>
            have look : (books db).accounts identity.userId = some user.account := by
              simp only [books, account, Option.map_some]
            simp only [look]
            have key : row.id = requestId :=
              Collection.key_of_find (Collection.findOne_eq_some_iff.mp stored).1
            subst key
            cases admitted : user.account.admits row.reserved charge with
            | true =>
                obtain ⟨found, owner⟩ := Collection.findOne_eq_some_iff.mp stored
                simp only [Bool.and_eq_true, beq_iff_eq] at owner
                rw [← owner.1] at account
                refine .inl ⟨_, _, completeWork_applied stored pending account admitted, ?_⟩
                rw [books_complete found account]
                exact if_pos admitted
            | false =>
                refine .inr ⟨ledgerUnavailable, db, ?_, ?_⟩
                · simp only [completeWork, stored, live, ne_eq, not_true, if_false, account,
                    account_admits_eq_false.mp admitted, if_true]
                · simp [QuotaJournalDoc.terms, admitted]
      · have settled : row.state ≠ .pending := pending
        simp only [Option.filter_some, pending, decide_false, Bool.false_eq_true, if_false,
          Option.map_none]
        refine .inl ⟨⟨⟨false, balanceOf db identity.userId⟩, 0⟩, db, ?_, rfl⟩
        simp only [completeWork, stored, settled, ne_eq, not_false_eq_true, if_true]

/-- One entry of the replay is one step over the books, and leaves the ledger
as it was where it throws. -/
theorem replayItem_books (item : QueueItem) (now : Int) (db : LedgerDb) :
    (∃ result db', replayItem item now .committed db = (.ok result, db') ∧
        (books db).replay item = some (books db')) ∨
      (∃ e, replayItem item now .committed db = (.error e, db) ∧
        (books db).replay item = none) := by
  cases item with
  | corrupt => exact .inr ⟨_, rfl, rfl⟩
  | entry requestId userId tokenId actual =>
      by_cases malformed : requestId = "" ∨ userId = "" ∨ tokenId = ""
      · refine .inr ⟨.gateway ledgerUnavailable, ?_, ?_⟩
        · simp only [replayItem, malformed, if_true]
        · simp only [Books.replay, malformed, if_true]
      simp only [replayItem, Books.replay, malformed, if_false, complete]
      cases amount : quotaAmount actual "charge" with
      | error e => exact .inr ⟨.gateway e, rfl, rfl⟩
      | ok charge =>
          cases completeWork_books ⟨userId, tokenId⟩ requestId charge (kindOf actual) now db with
          | inl returned =>
              obtain ⟨result, db', returned, next⟩ := returned
              refine .inl ⟨result, db', ?_, next⟩
              simp only [transaction, Transaction.atomically_of_ok returned, Except.mapError]
          | inr thrown =>
              obtain ⟨e, db', thrown, stuck⟩ := thrown
              refine .inr ⟨.gateway e, ?_, stuck⟩
              simp only [transaction, Transaction.atomically_of_error thrown, Except.mapError]

/-- An entry the replay passes over: it is well-formed, and its reservation is
not a live hold, or no longer. -/
def PassedOver (b : Books) : QueueItem → Prop
  | .corrupt => False
  | .entry requestId userId tokenId actual =>
      ¬(requestId = "" ∨ userId = "" ∨ tokenId = "") ∧
        (∃ charge, quotaAmount actual "charge" = .ok charge) ∧
        (b.reservations requestId).filter (fun terms => terms.isOpenFor userId tokenId) = none

theorem replay_of_passedOver {b : Books} {item : QueueItem} (h : PassedOver b item) :
    b.replay item = some b := by
  cases item with
  | corrupt => exact h.elim
  | entry requestId userId tokenId actual =>
      obtain ⟨wellFormed, ⟨charge, amount⟩, closed⟩ := h
      simp only [Books.replay, wellFormed, if_false, amount, Books.settle, closed]

theorem not_completable_of_passedOver {b : Books} {item : QueueItem} (h : PassedOver b item) :
    ¬Completable b item := by
  cases item with
  | corrupt => exact id
  | entry requestId userId tokenId actual =>
      rintro ⟨_, _, _, _, terms, _, _, stored, isOpen, _⟩
      have closed := h.2.2
      simp [stored, isOpen] at closed

theorem not_completable_of_refused {b : Books} {item : QueueItem} (h : b.replay item = none) :
    ¬Completable b item := by
  cases item with
  | corrupt => exact id
  | entry requestId userId tokenId actual =>
      rintro ⟨request, user, token, charge, terms, account, amount, stored, isOpen, owner, admitted⟩
      simp [Books.replay, request, user, token, amount, Books.settle, stored, Option.filter_some,
        isOpen, owner, admitted] at h

/-- A step of the books completes one live hold, or changes nothing. -/
theorem settle_cases {b b' : Books} {identity : Identity} {requestId : String} {charge : Int}
    (h : b.settle identity requestId charge = some b') :
    (b' = b ∧ (b.reservations requestId).filter
        (fun terms => terms.isOpenFor identity.userId identity.tokenId) = none) ∨
      ∃ terms account, b' = b.complete requestId terms account charge := by
  rw [Books.settle] at h
  split at h
  · next closed =>
      cases h
      exact .inl ⟨rfl, closed⟩
  · next terms _ =>
      split at h
      · cases h
      · next account _ =>
          split at h
          · cases h
            exact .inr ⟨terms, account, rfl⟩
          · cases h

theorem replay_cases {b b' : Books} {item : QueueItem} (h : b.replay item = some b') :
    (b' = b ∧ PassedOver b item) ∨
      ∃ requestId userId tokenId actual terms account, ∃ charge : Nat,
        item = .entry requestId userId tokenId actual ∧
        ¬(requestId = "" ∨ userId = "" ∨ tokenId = "") ∧
        quotaAmount actual "charge" = .ok charge ∧
        b' = b.complete requestId terms account charge := by
  cases item with
  | corrupt => cases h
  | entry requestId userId tokenId actual =>
      simp only [Books.replay] at h
      split at h
      · cases h
      · next wellFormed =>
          split at h
          · cases h
          · next charge amount =>
              cases settle_cases h with
              | inl same => exact .inl ⟨same.1, wellFormed, ⟨charge, amount⟩, same.2⟩
              | inr completed =>
                  obtain ⟨terms, account, completed⟩ := completed
                  exact .inr ⟨requestId, userId, tokenId, actual, terms, account, charge, rfl,
                    wellFormed, amount, completed⟩

/-- A completed reservation is not a live hold, for anybody. -/
theorem closed_of_complete (b : Books) (requestId : String) (terms : Terms) (account : Account)
    (charge : Int) (userId tokenId : String) :
    ((b.complete requestId terms account charge).reservations requestId).filter
      (fun terms => terms.isOpenFor userId tokenId) = none := by
  simp [Books.complete, Terms.isOpenFor]

theorem passedOver_of_replay {b b' : Books} {item : QueueItem} (h : b.replay item = some b') :
    PassedOver b' item := by
  cases replay_cases h with
  | inl same => exact same.1 ▸ same.2
  | inr completed =>
      obtain ⟨requestId, userId, tokenId, actual, terms, account, charge, rfl, wellFormed, amount,
        rfl⟩ := completed
      exact ⟨wellFormed, ⟨charge, amount⟩, closed_of_complete b requestId terms account charge _ _⟩

theorem passedOver_replay {b b' : Books} {item other : QueueItem} (h : PassedOver b item)
    (moved : b.replay other = some b') : PassedOver b' item := by
  cases replay_cases moved with
  | inl same => exact same.1 ▸ h
  | inr completed =>
      obtain ⟨completedId, _, _, _, terms, account, charge, _, _, _, rfl⟩ := completed
      cases item with
      | corrupt => exact h
      | entry requestId userId tokenId actual =>
          refine ⟨h.1, h.2.1, ?_⟩
          by_cases same : requestId = completedId
          · subst same
            exact closed_of_complete b requestId terms account charge _ _
          · simpa [Books.complete, same] using h.2.2

theorem passedOver_replayAll {now : Int} {items : List QueueItem} {db : LedgerDb}
    {item : QueueItem} (h : PassedOver (books db) item) :
    PassedOver (books (replayAll now items db).2) item := by
  induction items generalizing db with
  | nil => exact h
  | cons other items ih =>
      cases replayItem_books other now db with
      | inl moved =>
          obtain ⟨result, db', returned, next⟩ := moved
          simp only [replayAll, returned]
          exact ih (passedOver_replay h next)
      | inr refused =>
          obtain ⟨e, thrown, _⟩ := refused
          simp only [replayAll, thrown]
          exact h

/-- The batch holds an entry that throws behind entries that are passed over. -/
def Stuck (b : Books) (items : List QueueItem) : Prop :=
  ∃ pre item post, items = pre ++ item :: post ∧ (∀ passed ∈ pre, PassedOver b passed) ∧
    b.replay item = none

/-- How the loop ends: it has passed every entry, or it is stuck at one; and
what is left to fear of the queue in either case. -/
theorem replayAll_books (now : Int) (items : List QueueItem) (db : LedgerDb) :
    ((replayAll now items db).1 = .ok () ∧
        (∀ item ∈ items, PassedOver (books (replayAll now items db).2) item) ∧
        ∀ rest, ClearOfPoison (books db) (items ++ rest) ↔
          ClearOfPoison (books (replayAll now items db).2) rest) ∨
      ((∃ e, (replayAll now items db).1 = .error e) ∧
        Stuck (books (replayAll now items db).2) items ∧
        ∀ rest, ClearOfPoison (books db) (items ++ rest) ↔
          ∀ item ∈ items ++ rest, ¬Completable (books (replayAll now items db).2) item) := by
  induction items generalizing db with
  | nil => exact .inl ⟨rfl, nofun, fun rest => Iff.rfl⟩
  | cons item items ih =>
      cases replayItem_books item now db with
      | inl moved =>
          obtain ⟨result, db', returned, next⟩ := moved
          simp only [replayAll, returned, List.cons_append, ClearOfPoison, next]
          have passed : PassedOver (books (replayAll now items db').2) item :=
            passedOver_replayAll (passedOver_of_replay next)
          cases ih db' with
          | inl done =>
              obtain ⟨ok, all, clear⟩ := done
              exact .inl ⟨ok, List.forall_mem_cons.mpr ⟨passed, all⟩, clear⟩
          | inr stuck =>
              obtain ⟨error, ⟨pre, bad, post, split, all, refused⟩, clear⟩ := stuck
              refine .inr ⟨error, ⟨item :: pre, bad, post, by rw [split, List.cons_append],
                List.forall_mem_cons.mpr ⟨passed, all⟩, refused⟩, fun rest => ?_⟩
              rw [clear rest, List.forall_mem_cons]
              exact (and_iff_right (not_completable_of_passedOver passed)).symm
      | inr refused =>
          obtain ⟨e, thrown, refused⟩ := refused
          simp only [replayAll, thrown, List.cons_append, ClearOfPoison, refused]
          refine .inr ⟨⟨e, rfl⟩, ⟨[], item, items, rfl, nofun, refused⟩, fun rest => ?_⟩
          rw [List.forall_mem_cons]
          exact (and_iff_right (not_completable_of_refused refused)).symm

/-- A stuck batch throws again and changes nothing. -/
theorem replayAll_stuck (now : Int) {items : List QueueItem} {db : LedgerDb}
    (h : Stuck (books db) items) :
    (∃ e, (replayAll now items db).1 = .error e) ∧
      books (replayAll now items db).2 = books db := by
  obtain ⟨pre, bad, post, rfl, passed, refused⟩ := h
  induction pre generalizing db with
  | nil =>
      cases replayItem_books bad now db with
      | inl moved =>
          obtain ⟨_, _, _, next⟩ := moved
          exact nomatch refused.symm.trans next
      | inr thrown =>
          obtain ⟨e, thrown, _⟩ := thrown
          exact ⟨⟨e, by simp only [List.nil_append, replayAll, thrown]⟩,
            by simp only [List.nil_append, replayAll, thrown]⟩
  | cons item pre ih =>
      obtain ⟨first, passed⟩ := List.forall_mem_cons.mp passed
      cases replayItem_books item now db with
      | inl moved =>
          obtain ⟨result, db', returned, next⟩ := moved
          have same : books db' = books db :=
            Option.some.inj (next.symm.trans (replay_of_passedOver first))
          simp only [List.cons_append, replayAll, returned, ← same]
          exact ih (same ▸ passed) (same ▸ refused)
      | inr thrown =>
          obtain ⟨e, _, stuck⟩ := thrown
          exact nomatch stuck.symm.trans (replay_of_passedOver first)

/-- One bad settlement blocks no other: a run applies every peeked entry that
is completable on its own, so none is left completable, and repeated runs leave
no completable entry in the queue. -/
def NeverBlocks (limit : Int) (clock : Nat → Int) (s : LedgerDb × List QueueItem) : Prop :=
  (∀ item ∈ s.2.take (batchSize limit),
    ¬Completable (books (flushQuotaSettlements limit (clock 0) s).2.1) item) ∧
  ∃ N, ∀ n ≥ N, ∀ item ∈ (flushRuns limit clock n s).2,
    ¬Completable (books (flushRuns limit clock n s).1) item

theorem batchSize_pos (limit : Int) : 0 < batchSize limit := by
  simp only [batchSize]
  omega

/-- How a run ends: the batch is gone, or it stays and is stuck. -/
theorem flush_cases (limit now : Int) (db : LedgerDb) {queue : List QueueItem}
    (nonempty : queue ≠ []) :
    (∃ db', (flushQuotaSettlements limit now (db, queue)).2 =
        (db', queue.drop (batchSize limit)) ∧
      (∀ item ∈ queue.take (batchSize limit), PassedOver (books db') item) ∧
      (ClearOfPoison (books db) queue ↔
        ClearOfPoison (books db') (queue.drop (batchSize limit)))) ∨
    ∃ db', (flushQuotaSettlements limit now (db, queue)).2 = (db', queue) ∧
      Stuck (books db') (queue.take (batchSize limit)) ∧
      (ClearOfPoison (books db) queue ↔ ∀ item ∈ queue, ¬Completable (books db') item) := by
  have positive := batchSize_pos limit
  have peeked : (queue.take (batchSize limit)).isEmpty = false := by
    cases queue with
    | nil => exact absurd rfl nonempty
    | cons item items =>
        obtain ⟨n, hn⟩ := Nat.exists_eq_succ_of_ne_zero positive.ne'
        rw [hn, List.take_succ_cons, List.isEmpty_cons]
  have trimmed : queue.drop (queue.take (batchSize limit)).length =
      queue.drop (batchSize limit) := by
    rw [List.length_take]
    cases Nat.le_total (batchSize limit) queue.length with
    | inl le => rw [Nat.min_eq_left le]
    | inr ge => rw [Nat.min_eq_right ge, List.drop_length, List.drop_of_length_le ge]
  cases replayAll_books now (queue.take (batchSize limit)) db with
  | inl done =>
      obtain ⟨ok, passed, clear⟩ := done
      refine .inl ⟨_, ?_, passed, ?_⟩
      · simp only [flushQuotaSettlements, peeked, Bool.false_eq_true, if_false]
        split
        · next returned => simp only [returned, trimmed]
        · next thrown => exact nomatch (congrArg Prod.fst thrown).symm.trans ok
      · simpa only [List.take_append_drop] using clear (queue.drop (batchSize limit))
  | inr stopped =>
      obtain ⟨⟨e, error⟩, stuck, clear⟩ := stopped
      refine .inr ⟨_, ?_, stuck, ?_⟩
      · simp only [flushQuotaSettlements, peeked, Bool.false_eq_true, if_false]
        split
        · next returned => exact nomatch (congrArg Prod.fst returned).symm.trans error
        · next thrown => simp only [thrown]
      · simpa only [List.take_append_drop] using clear (queue.drop (batchSize limit))

/-- Runs on a stuck batch leave the books and the queue as they are. -/
theorem flushRuns_stuck (limit : Int) (clock : Nat → Int) (n : Nat) {db : LedgerDb}
    {queue : List QueueItem} (stuck : Stuck (books db) (queue.take (batchSize limit))) :
    books (flushRuns limit clock n (db, queue)).1 = books db ∧
      (flushRuns limit clock n (db, queue)).2 = queue := by
  induction n generalizing db clock with
  | zero => exact ⟨rfl, rfl⟩
  | succ n ih =>
      obtain ⟨⟨e, error⟩, same⟩ := replayAll_stuck (clock 0) stuck
      have stays : (flushQuotaSettlements limit (clock 0) (db, queue)).2 =
          ((replayAll (clock 0) (queue.take (batchSize limit)) db).2, queue) := by
        have peeked : (queue.take (batchSize limit)).isEmpty = false := by
          obtain ⟨pre, bad, post, split, _⟩ := stuck
          simp [split]
        simp only [flushQuotaSettlements, peeked, Bool.false_eq_true, if_false]
        split
        · next returned => exact nomatch (congrArg Prod.fst returned).symm.trans error
        · next thrown => simp only [thrown]
      simp only [flushRuns, stays]
      exact ⟨(ih _ (same ▸ stuck)).1.trans same, (ih _ (same ▸ stuck)).2⟩

theorem flushRuns_nil (limit : Int) (clock : Nat → Int) (n : Nat) (db : LedgerDb) :
    (flushRuns limit clock n (db, [])).2 = [] := by
  induction n generalizing clock with
  | zero => rfl
  | succ n ih =>
      simpa [flushRuns, flushQuotaSettlements] using ih (fun k => clock (k + 1))

theorem eventually_succ {Q : Nat → Prop} :
    (∃ N, ∀ n ≥ N, Q n) ↔ ∃ N, ∀ n ≥ N, Q (n + 1) := by
  refine ⟨fun ⟨N, h⟩ => ⟨N, fun n hn => h (n + 1) (by omega)⟩, fun ⟨N, h⟩ => ⟨N + 1, ?_⟩⟩
  intro n hn
  obtain ⟨m, rfl⟩ := Nat.exists_eq_succ_of_ne_zero (by omega : n ≠ 0)
  exact h m (by omega)

/-- Repeated runs drain what is completable exactly when nothing completable
stands behind an entry that throws. -/
theorem eventually_drained_iff (limit : Int) (clock : Nat → Int) (db : LedgerDb)
    (queue : List QueueItem) :
    (∃ N, ∀ n ≥ N, ∀ item ∈ (flushRuns limit clock n (db, queue)).2,
      ¬Completable (books (flushRuns limit clock n (db, queue)).1) item) ↔
      ClearOfPoison (books db) queue := by
  induction hlen : queue.length using Nat.strong_induction_on generalizing clock db queue with
  | _ len ih =>
      cases hq : queue with
      | nil =>
          refine ⟨fun _ => trivial, fun _ => ⟨0, fun n _ => ?_⟩⟩
          simp [flushRuns_nil]
      | cons first others =>
          rw [← hq, eventually_succ]
          cases flush_cases limit (clock 0) db (hq ▸ List.cons_ne_nil first others) with
          | inl acked =>
              obtain ⟨db', left, _, clear⟩ := acked
              simp only [flushRuns, left]
              rw [clear]
              refine ih _ ?_ _ _ _ rfl
              have positive := batchSize_pos limit
              have : queue.length ≠ 0 := by simp [hq]
              rw [List.length_drop]
              omega
          | inr stays =>
              obtain ⟨db', left, stuck, clear⟩ := stays
              simp only [flushRuns, left]
              rw [clear]
              constructor
              · rintro ⟨N, h⟩
                have fixed := flushRuns_stuck limit (fun k => clock (k + 1)) N stuck
                have h := h N le_rfl
                rwa [fixed.1, fixed.2] at h
              · intro h
                refine ⟨0, fun n _ => ?_⟩
                have fixed := flushRuns_stuck limit (fun k => clock (k + 1)) n stuck
                rwa [fixed.1, fixed.2]

/-- The replay never lets one entry block another exactly when, walking the
queue from its head, no completable entry stands behind one that throws. -/
theorem flush_never_blocks_iff (limit : Int) (clock : Nat → Int) (db : LedgerDb)
    (queue : List QueueItem) :
    NeverBlocks limit clock (db, queue) ↔ ClearOfPoison (books db) queue := by
  refine ⟨fun h => (eventually_drained_iff limit clock db queue).mp h.2, fun clear => ⟨?_,
    (eventually_drained_iff limit clock db queue).mpr clear⟩⟩
  intro item peeked
  have nonempty : queue ≠ [] := by
    rintro rfl
    simp at peeked
  cases flush_cases limit (clock 0) db nonempty with
  | inl acked =>
      obtain ⟨db', left, passed, _⟩ := acked
      rw [left]
      exact not_completable_of_passedOver (passed item peeked)
  | inr stays =>
      obtain ⟨db', left, _, cleared⟩ := stays
      rw [left]
      exact cleared.mp clear item (List.mem_of_mem_take peeked)

/-- One account with one live hold of ten. -/
def holdLedger : LedgerDb where
  users := ⟨[⟨"u", .enabled, 90, some 2, 0, 0, 0⟩], by simp⟩
  tokens := ⟨[⟨"t", "u", .enabled, 90, some 2, 0, false, none, 0⟩], by simp⟩
  journal := ⟨[reservation "r" "u" "t" true 10 0], by simp⟩
  codes := Collection.empty

/-- A garbled entry in front of the settlement of the hold. -/
def garbledQueue : List QueueItem := [.corrupt, .entry "r" "u" "t" (.ofInt 5)]

/-- The settlement behind the garbled entry is peeked, completable, and left. -/
theorem flush_blocked_by_corrupt : ¬NeverBlocks 100 (fun _ => 0) (holdLedger, garbledQueue) := by
  rintro ⟨applied, _⟩
  have peeked : QueueItem.entry "r" "u" "t" (.ofInt 5) ∈ garbledQueue.take (batchSize 100) := by
    decide
  exact applied _ peeked ⟨by decide, by decide, by decide, 5, ⟨"u", "t", 10, true⟩, ⟨90, 0⟩,
    quotaAmount_natCast (by decide) "charge", rfl, rfl, rfl, by decide⟩

end Gateway
