import Gateway.Admin.Router
import Gateway.Auth.Rechecked
import Gateway.Lib.Fallible
import Gateway.Quota.Conservation

/-!
What callers other than root leave of the accounts with authority.

Each route that writes accounts or tokens has looked at the role of the account that it
is about. A redemption is the exception: it credits the account of its own caller,
whatever its role.
-/

namespace Gateway.Admin

open Gateway.Auth Transaction

section Authority

def AccountDoc.IsElevated (user : AccountDoc) : Prop := user.role ≠ .user

def ownedBy (tokens : Collection KeyDoc) (userId : String) : List KeyDoc :=
  tokens.docs.filter fun token => token.userId == userId

def AccountDoc.credited (user : AccountDoc) (credit updatedAt : Int) : AccountDoc :=
  { user with quota := user.quota + credit, updatedAt := updatedAt }

/-- The accounts with authority are the same, but for what they redeemed in between, which only
the callers do, and so are the tokens that they own. -/
structure AuthorityKept (callers : Set String) (db db' : AdminDb) : Prop where
  accounts : ∀ id user, db.users.find id = some user → user.IsElevated → ∃ updatedAt,
    db'.users.find id =
      some (user.credited (redeemed db'.ledger id - redeemed db.ledger id) updatedAt)
  raised : ∀ id user', db'.users.find id = some user' → user'.IsElevated →
    ∃ user, db.users.find id = some user ∧ user.IsElevated
  tokens : ∀ id user, db.users.find id = some user → user.IsElevated →
    ownedBy db'.tokens id = ownedBy db.tokens id
  redemptions : ∀ id ∉ callers, redeemed db'.ledger id = redeemed db.ledger id

namespace AuthorityKept

variable {callers : Set String} {db db' db'' : AdminDb}

theorem redeemed_of_codes (codes : db'.codes = db.codes) (id : String) :
    redeemed db'.ledger id = redeemed db.ledger id := by
  simp only [redeemed, AdminDb.ledger, codes]

theorem of_users (others : ∀ id user, db.users.find id = some user → user.IsElevated →
      db'.users.find id = some user)
    (raised : ∀ id user', db'.users.find id = some user' → user'.IsElevated →
      db.users.find id = some user')
    (tokens : db'.tokens = db.tokens) (codes : db'.codes = db.codes) :
    AuthorityKept callers db db' where
  accounts id user found elevated := by
    refine ⟨user.updatedAt, ?_⟩
    rw [others id user found elevated, redeemed_of_codes codes, AccountDoc.credited, sub_self,
      Int.add_zero]
  raised id user' found elevated := ⟨user', raised id user' found elevated, elevated⟩
  tokens _ _ _ _ := by rw [tokens]
  redemptions id _ := redeemed_of_codes codes id

theorem of_tokens (users : db'.users = db.users) (codes : db'.codes = db.codes)
    (tokens : ∀ id user, db.users.find id = some user → user.IsElevated →
      ownedBy db'.tokens id = ownedBy db.tokens id) : AuthorityKept callers db db' where
  accounts id user found _ := by
    refine ⟨user.updatedAt, ?_⟩
    rw [users, found, redeemed_of_codes codes, AccountDoc.credited, sub_self, Int.add_zero]
  raised id user' found elevated := ⟨user', users ▸ found, elevated⟩
  tokens := tokens
  redemptions id _ := redeemed_of_codes codes id

theorem of_same (users : db'.users = db.users) (tokens : db'.tokens = db.tokens)
    (codes : db'.codes = db.codes) : AuthorityKept callers db db' :=
  of_tokens users codes fun _ _ _ _ => by rw [tokens]

theorem refl (db : AdminDb) : AuthorityKept callers db db := of_same rfl rfl rfl

theorem trans (first : AuthorityKept callers db db') (second : AuthorityKept callers db' db'') :
    AuthorityKept callers db db'' where
  accounts id user found elevated := by
    obtain ⟨date, found'⟩ := first.accounts id user found elevated
    obtain ⟨date', found''⟩ := second.accounts id _ found' elevated
    refine ⟨date', found''.trans ?_⟩
    have total : user.quota + (redeemed db'.ledger id - redeemed db.ledger id) +
        (redeemed db''.ledger id - redeemed db'.ledger id) =
          user.quota + (redeemed db''.ledger id - redeemed db.ledger id) := by omega
    simp only [AccountDoc.credited, total]
  raised id user'' found elevated := by
    obtain ⟨user', found', elevated'⟩ := second.raised id user'' found elevated
    exact first.raised id user' found' elevated'
  tokens id user found elevated := by
    obtain ⟨date, found'⟩ := first.accounts id user found elevated
    exact (second.tokens id _ found' elevated).trans (first.tokens id user found elevated)
  redemptions id other := (second.redemptions id other).trans (first.redemptions id other)

theorem mono {more : Set String} (le : callers ⊆ more) (kept : AuthorityKept callers db db') :
    AuthorityKept more db db' :=
  { kept with redemptions := fun id other => kept.redemptions id fun mem => other (le mem) }

end AuthorityKept

end Authority

section Checks

theorem assertCanManageUser_ok {context : AdminContext} (member : context.role ≠ .root)
    {target : Option AccountDoc} {nextRole : Option Json}
    (passed : assertCanManageUser context target nextRole = .ok ()) :
    (∀ user ∈ target, user.role = .user) ∧ ∀ role ∈ nextRole, isUserText role = true := by
  rw [assertCanManageUser, if_neg member] at passed
  split at passed
  · cases passed
  · next plain =>
      simp only [Bool.or_eq_true, Option.any_eq_true, not_or, not_exists, not_and] at plain
      refine ⟨fun user target => ?_, fun role named => ?_⟩
      · simpa using plain.1 user target
      · simpa using plain.2 role named

theorem asRole_user {value : Option Json} (plain : ∀ role ∈ value, isUserText role = true)
    {role : UserRole} (read : asRole value .user = .ok role) : role = .user := by
  cases value with
  | none =>
      cases read
      rfl
  | some named =>
      have text := plain named rfl
      unfold isUserText at text
      split at text
      · cases read
        rfl
      · cases text

theorem getUser_ok {users : Collection AccountDoc} {id : String} {user : AccountDoc}
    (found : getUser users id = .ok user) : users.find id = some user := by
  rw [getUser] at found
  split at found
  · cases found
  · next stored =>
      cases found
      exact stored

theorem getToken_ok {tokens : Collection KeyDoc} {id : String} {token : KeyDoc}
    (found : getToken tokens id = .ok token) : tokens.find id = some token := by
  rw [getToken] at found
  split at found
  · cases found
  · next stored =>
      cases found
      exact stored

end Checks

section Users

theorem createUser_cases (idBytes : List UInt8) (now : Int) (commit : Commit) (input : Record)
    (credentials : Credentials) (users : Collection AccountDoc) :
    (createUser idBytes now commit input credentials users).2 = users ∨
      ∃ user fresh, asRole (input.field "role") .user = .ok user.role ∧
        (createUser idBytes now commit input credentials users).2 =
          users.insertFresh user fresh := by
  rw [createUser]
  split
  · exact .inl rfl
  next username named =>
  split
  · exact .inl rfl
  split
  · exact .inl rfl
  next user made =>
  have role : asRole (input.field "role") .user = .ok user.role := by
    rw [newAccount] at made
    obtain ⟨role, named, made⟩ := Fallible.bind_ok made
    obtain ⟨status, -, made⟩ := Fallible.bind_ok made
    obtain ⟨quota, -, made⟩ := Fallible.bind_ok made
    cases made
    exact named
  cases atomically_cases .fault commit (insertAccount user) users with
  | inl undone => exact .inl undone.1
  | inr done =>
      obtain ⟨_, inserted, -⟩ := done
      rw [insertAccount] at inserted
      split at inserted
      · cases inserted
      split at inserted
      · cases inserted
      split at inserted
      · cases inserted
      · next stored =>
          obtain ⟨fresh, rfl⟩ := Collection.insertOne_eq_some stored
          refine .inr ⟨user, fresh, role, ?_⟩
          exact (congrArg Prod.snd inserted).symm

theorem updateUser_cases (now : Int) (id : String) (patch : Record)
    (users : Collection AccountDoc) :
    (updateUser now id patch users).2 = users ∨
      ∃ (user : AccountDoc) (update : UserUpdate), users.find id = some user ∧
        patched patch "role" (asRole · user.role) = .ok update.role ∧
        (updateUser now id patch users).2 = users.modify id update.toUpdate := by
  rw [updateUser]
  split
  · exact .inl rfl
  next user update expected read =>
  obtain ⟨stored, found, read⟩ := Fallible.bind_ok read
  obtain ⟨checked, made, read⟩ := Fallible.bind_ok read
  obtain ⟨_, -, read⟩ := Fallible.bind_ok read
  cases read
  split
  · exact .inl rfl
  split
  · exact .inl rfl
  rw [userUpdate] at made
  obtain ⟨displayName, -, made⟩ := Fallible.bind_ok made
  obtain ⟨role, named, made⟩ := Fallible.bind_ok made
  obtain ⟨status, -, made⟩ := Fallible.bind_ok made
  obtain ⟨group, -, made⟩ := Fallible.bind_ok made
  obtain ⟨quota, -, made⟩ := Fallible.bind_ok made
  obtain ⟨rpmLimit, -, made⟩ := Fallible.bind_ok made
  obtain ⟨tpmLimit, -, made⟩ := Fallible.bind_ok made
  cases made
  exact .inr ⟨user, _, getUser_ok found, named, rfl⟩

theorem patched_role {patch : Record} (plain : ∀ role ∈ patch.field "role", isUserText role = true)
    {role : Option UserRole} (read : patched patch "role" (asRole · .user) = .ok role) :
    role.getD .user = .user := by
  rw [patched] at read
  split at read
  · cases read
    rfl
  · next value named =>
      cases checked : asRole (some value) .user with
      | error e =>
          rw [checked] at read
          cases read
      | ok given =>
          rw [checked] at read
          cases read
          exact asRole_user (fun role mem => plain role (named ▸ mem)) checked

variable {callers : Set String} {idBytes : List UInt8} {now : Int} {commit : Commit}
  {input : Record} {credentials : Credentials} {id : String} {patch : Record} {db : AdminDb}

theorem kept_createUser (plain : ∀ role ∈ input.field "role", isUserText role = true) :
    AuthorityKept callers db
      { db with users := (createUser idBytes now commit input credentials db.users).2 } := by
  cases createUser_cases idBytes now commit input credentials db.users with
  | inl same => exact .of_same same rfl rfl
  | inr made =>
      obtain ⟨user, fresh, named, inserted⟩ := made
      have role : user.role = .user := asRole_user plain named
      have found (key : String) := Collection.find_insertFresh db.users user fresh key
      rw [inserted]
      refine .of_users (fun key other stored _ => ?_) (fun key other stored elevated => ?_) rfl rfl
      · rw [found, if_neg, stored]
        rintro rfl
        rw [fresh] at stored
        cases stored
      · rw [found] at stored
        split at stored
        · cases stored
          exact absurd role elevated
        · exact stored

theorem kept_updateUser {target : AccountDoc} (stored : db.users.find id = some target)
    (member : target.role = .user) (plain : ∀ role ∈ patch.field "role", isUserText role = true) :
    AuthorityKept callers db { db with users := (updateUser now id patch db.users).2 } := by
  cases updateUser_cases now id patch db.users with
  | inl same => exact .of_same same rfl rfl
  | inr edited =>
      obtain ⟨user, update, found, named, modified⟩ := edited
      cases stored.symm.trans found
      rw [member] at named
      have role : (update.toUpdate.apply target).role = .user := by
        change update.role.getD target.role = .user
        rw [member]
        exact patched_role plain named
      rw [modified]
      refine .of_users (fun key other there elevated => ?_) (fun key other there elevated => ?_)
        rfl rfl
      · rw [Collection.find_modify, if_neg, there]
        rintro rfl
        cases stored.symm.trans there
        exact elevated member
      · rw [Collection.find_modify] at there
        split at there
        · rw [stored, Option.map_some] at there
          cases there
          exact absurd role elevated
        · exact there

end Users

section Tokens

variable {callers : Set String} {parseDate : String → Option Int} {idBytes : List UInt8}
  {generated : GeneratedKey} {now : Int} {input : Record} {id : String} {patch : Record}
  {db : AdminDb}

/-- A change of tokens that are not those of an account with authority. -/
theorem kept_tokens {owner : AccountDoc} {userId : String} (stored : db.users.find userId = some owner)
    (member : owner.role = .user) {tokens : Collection KeyDoc}
    (others : ∀ key, key ≠ userId → ownedBy tokens key = ownedBy db.tokens key) :
    AuthorityKept callers db { db with tokens := tokens } := by
  refine .of_tokens rfl rfl fun key user found elevated => others key ?_
  rintro rfl
  cases stored.symm.trans found
  exact elevated member

theorem createToken_cases :
    (createToken parseDate idBytes generated now input db.users db.tokens).2 = db.tokens ∨
      ∃ (token : KeyDoc) (fresh : db.tokens.find (Document.key token) = none),
        requireText (input.field "userId") "userId" 200 = .ok token.userId ∧
        (createToken parseDate idBytes generated now input db.users db.tokens).2 =
          db.tokens.insertFresh token fresh := by
  rw [createToken]
  split
  · exact .inl rfl
  next token made =>
  split
  · exact .inl rfl
  split
  · exact .inl rfl
  next stored =>
  obtain ⟨fresh, rfl⟩ := Collection.insertOne_eq_some stored
  refine .inr ⟨token, fresh, ?_, rfl⟩
  rw [newToken] at made
  obtain ⟨userId, named, made⟩ := Fallible.bind_ok made
  obtain ⟨_, -, made⟩ := Fallible.bind_ok made
  obtain ⟨expiresAt, -, made⟩ := Fallible.bind_ok made
  obtain ⟨quota, -, made⟩ := Fallible.bind_ok made
  obtain ⟨allowedIps, -, made⟩ := Fallible.bind_ok made
  obtain ⟨allowedModels, -, made⟩ := Fallible.bind_ok made
  cases made
  exact named

/-- The owner that is looked at is the one of the new token: ids have no space around them. -/
theorem owner_of_requireText {owner : AccountDoc} {value : Option Json} {userId : String}
    (looked : db.users.find (textOr value) = some owner)
    (named : requireText value "userId" 200 = .ok userId) : db.users.find userId = some owner := by
  unfold requireText at named
  split at named
  · split at named
    · cases named
    split at named
    · cases named
    cases named
    have id : owner.id = _ := Collection.key_of_find looked
    have unspaced := owner.unspaced
    rw [id] at unspaced
    change jsTrim _ = _ at unspaced
    exact unspaced.symm ▸ looked
  · cases named

theorem kept_createToken {owner : AccountDoc}
    (looked : db.users.find (textOr (input.field "userId")) = some owner)
    (member : owner.role = .user) :
    AuthorityKept callers db
      { db with tokens := (createToken parseDate idBytes generated now input db.users
          db.tokens).2 } := by
  cases @createToken_cases parseDate idBytes generated now input db with
  | inl same => exact .of_same rfl same rfl
  | inr made =>
      obtain ⟨token, fresh, named, inserted⟩ := made
      refine kept_tokens (owner_of_requireText looked named) member fun key other => ?_
      rw [inserted]
      exact Collection.filter_insertFresh fresh (beq_eq_false_iff_ne.mpr (Ne.symm other))

/-- An update of a token under its id, which leaves the owner as it is. -/
theorem ownedBy_modify {token : KeyDoc} (stored : db.tokens.find id = some token)
    (update : Update KeyDoc) (keeps : (update.apply token).userId = token.userId) {key : String}
    (other : key ≠ token.userId) :
    ownedBy (db.tokens.modify id update) key = ownedBy db.tokens key := by
  refine Collection.filter_modify fun found there => ?_
  cases stored.symm.trans there
  rw [keeps]
  exact ⟨beq_eq_false_iff_ne.mpr (Ne.symm other), beq_eq_false_iff_ne.mpr (Ne.symm other)⟩

theorem kept_updateToken {token : KeyDoc} {owner : AccountDoc}
    (stored : db.tokens.find id = some token) (looked : db.users.find token.userId = some owner)
    (member : owner.role = .user) :
    AuthorityKept callers db
      { db with tokens := (updateToken parseDate now id patch db.tokens).2 } := by
  refine kept_tokens looked member fun key other => ?_
  rw [updateToken]
  split
  · rfl
  · exact ownedBy_modify stored _ rfl other

theorem kept_rotateToken {token : KeyDoc} {owner : AccountDoc}
    (stored : db.tokens.find id = some token) (looked : db.users.find token.userId = some owner)
    (member : owner.role = .user) :
    AuthorityKept callers db { db with tokens := (rotateToken generated now id db.tokens).2 } := by
  refine kept_tokens looked member fun key other => ?_
  rw [rotateToken]
  split
  · rfl
  split
  · rfl
  · exact ownedBy_modify stored _ rfl other

theorem kept_deleteToken {token : KeyDoc} {owner : AccountDoc}
    (stored : db.tokens.find id = some token) (looked : db.users.find token.userId = some owner)
    (member : owner.role = .user) :
    AuthorityKept callers db { db with tokens := (deleteToken id db.tokens).2 } := by
  refine kept_tokens looked member fun key other => ?_
  rw [deleteToken]
  split
  · rfl
  · refine Collection.filter_deleteOne fun found there => ?_
    cases stored.symm.trans there
    exact beq_eq_false_iff_ne.mpr (Ne.symm other)

end Tokens

section Redemptions

/-- A redemption that returns has claimed a code for its caller, and has credited it. -/
theorem redeemWork_ok {digest userId : String} {now : Int} {ledger ledger' : LedgerDb}
    {result : RedeemResult} (returned : redeemWork digest userId now ledger = (.ok result, ledger')) :
    ∃ code, ledger.codes.find code.id = some code ∧ code.status = .unused ∧
      ledger'.users = ledger.users.modify userId (creditUser code.quota now) ∧
      ledger'.codes = ledger.codes.modify code.id (claimCode userId now) := by
  rw [redeemWork] at returned
  split at returned
  · cases returned
  split at returned
  · cases returned
  split at returned
  · cases returned
  next code claimable =>
  simp only at returned
  split at returned
  · cases returned
  next credit amount =>
  split at returned
  · cases returned
  split at returned
  · cases returned
  next updated users update =>
  cases returned
  obtain ⟨_, _, _, _, rfl⟩ := Collection.findOneAndUpdate_eq_some update
  have stored : ledger.codes.find code.id = some code :=
    Collection.find_of_mem (List.mem_of_find?_eq_some claimable)
  have unused := List.find?_some claimable
  simp only [isClaimable, Bool.and_eq_true, beq_iff_eq] at unused
  have credited : (credit : Int) = code.quota := quotaAmount_ofInt amount
  exact ⟨code, stored, unused.1.2, by rw [credited], rfl⟩

theorem redeemCode_cases (codeDigestFor : String → String) (attempts : Checked Unit)
    (rawCode userId : String) (now : Int) (commit : Commit) (ledger : LedgerDb) :
    (redeemCode codeDigestFor attempts rawCode userId now commit ledger).2 = ledger ∨
      ∃ code, ledger.codes.find code.id = some code ∧ code.status = .unused ∧
        (redeemCode codeDigestFor attempts rawCode userId now commit ledger).2.users =
          ledger.users.modify userId (creditUser code.quota now) ∧
        (redeemCode codeDigestFor attempts rawCode userId now commit ledger).2.codes =
          ledger.codes.modify code.id (claimCode userId now) := by
  rw [redeemCode]
  split
  · exact .inl rfl
  split
  · exact .inl rfl
  next trimmed _ _ =>
  cases atomically_cases .fault commit
      (redeemWork (codeDigestFor (toUpperAlnum trimmed)) userId now) ledger with
  | inl undone => exact .inl undone.1
  | inr done =>
      obtain ⟨result, returned, -⟩ := done
      exact .inr (redeemWork_ok returned)

theorem withLedger_eq {ledger : LedgerDb} {user : AccountDoc} {kept : UserDoc}
    (found : ledger.users.find user.id = some kept) (unspaced : jsTrim kept.id = kept.id) :
    withLedger ledger user = { user with toUserDoc := kept, unspaced := unspaced } := by
  rw [withLedger]
  split
  · next missing =>
      rw [found] at missing
      cases missing
  · next kept' found' =>
      cases found.symm.trans found'
      rfl

theorem withLedger_role (ledger : LedgerDb) (user : AccountDoc) :
    (withLedger ledger user).role = user.role := by
  rw [withLedger]
  split <;> rfl

theorem find_ledger (db : AdminDb) (id : String) :
    db.ledger.users.find id = (db.users.find id).map AccountDoc.toUserDoc :=
  Collection.find_mapDocs db.users AccountDoc.toUserDoc (fun _ => rfl) id

variable {codeDigestFor : String → String} {attempts : Checked Unit} {rawCode userId : String}
  {now : Int} {commit : Commit} {db : AdminDb}

/-- What a redemption leaves under an id. -/
theorem find_redeem (id : String) :
    (redeem codeDigestFor attempts rawCode userId now commit db).2.users.find id =
      (db.users.find id).map (withLedger
        (redeemCode codeDigestFor attempts rawCode userId now commit db.ledger).2) :=
  Collection.find_mapDocs db.users _ (withLedger_id _) id

/-- Only the codes that its caller redeemed become more. -/
theorem redeemed_redeem_other {id : String} (other : id ≠ userId) :
    redeemed (redeem codeDigestFor attempts rawCode userId now commit db).2.ledger id =
      redeemed db.ledger id := by
  have codes : (redeem codeDigestFor attempts rawCode userId now commit db).2.ledger.codes =
      (redeemCode codeDigestFor attempts rawCode userId now commit db.ledger).2.codes := rfl
  cases redeemCode_cases codeDigestFor attempts rawCode userId now commit db.ledger with
  | inl same => rw [redeemed, codes, same, redeemed]
  | inr claimed =>
      obtain ⟨code, stored, unused, -, modified⟩ := claimed
      have moved := Collection.total_modify stored (claimCode userId now)
        (fun code => if code.status = .used ∧ code.usedBy = some id then code.quota else 0)
      simp only [claimCode, unused, Option.some.injEq, Ne.symm other, and_false, reduceCtorEq,
        false_and, if_false, add_zero] at moved
      rw [redeemed, codes, modified, redeemed]
      exact moved

theorem kept_redeem :
    AuthorityKept {userId} db (redeem codeDigestFor attempts rawCode userId now commit db).2 where
  accounts id user found _ := by
    have name : user.id = id := Collection.key_of_find found
    have ledger : db.ledger.users.find user.id = some user.toUserDoc := by
      rw [find_ledger, name, found, Option.map_some]
    rw [find_redeem, found, Option.map_some]
    cases redeemCode_cases codeDigestFor attempts rawCode userId now commit db.ledger with
    | inl same =>
        have codes : redeemed (redeem codeDigestFor attempts rawCode userId now commit db).2.ledger
            id = redeemed db.ledger id := by
          change redeemed { db.ledger with codes := (redeemCode codeDigestFor attempts rawCode userId
            now commit db.ledger).2.codes } id = _
          rw [same]
        refine ⟨user.updatedAt, ?_⟩
        rw [codes, same, withLedger_eq ledger user.unspaced, AccountDoc.credited, sub_self,
          Int.add_zero]
    | inr claimed =>
        obtain ⟨code, stored, unused, users, codes⟩ := claimed
        have after : (redeemCode codeDigestFor attempts rawCode userId now commit
            db.ledger).2.users.find user.id =
              some (if user.id = userId then (creditUser code.quota now).apply user.toUserDoc
                else user.toUserDoc) := by
          rw [users]
          exact Collection.find_modify_some ledger userId _
        by_cases own : user.id = userId
        · rw [if_pos own] at after
          have credit : redeemed (redeem codeDigestFor attempts rawCode userId now commit
              db).2.ledger id = redeemed db.ledger id + code.quota := by
            have moved := @redeemed_redeem db.ledger code user.toUserDoc now stored unused id
              db.ledger.users
            rw [if_pos name] at moved
            rw [← moved]
            change redeemed { db.ledger with codes := (redeemCode codeDigestFor attempts rawCode
              userId now commit db.ledger).2.codes } id = _
            rw [codes, own]
          refine ⟨now, ?_⟩
          rw [withLedger_eq after user.unspaced, credit, AccountDoc.credited, add_sub_cancel_left]
          rfl
        · rw [if_neg own] at after
          refine ⟨user.updatedAt, ?_⟩
          rw [redeemed_redeem_other (name ▸ own), withLedger_eq after user.unspaced,
            AccountDoc.credited, sub_self, Int.add_zero]
  redemptions id other := redeemed_redeem_other other
  raised id user' found elevated := by
    rw [find_redeem] at found
    obtain ⟨user, stored, rfl⟩ := Option.map_eq_some_iff.mp found
    refine ⟨user, stored, ?_⟩
    rwa [AccountDoc.IsElevated, withLedger_role] at elevated
  tokens _ _ _ _ := rfl

end Redemptions

section Routes

/-- What the state of a route that was named is. -/
def Leaves (P : AdminDb → Prop) : Routed → Prop
  | none => True
  | some outcome => P outcome.2

/-- An entry in the audit trail changes nothing else. -/
theorem AuthorityKept.concluded {α : Type} {callers : Set String} {context : AdminContext} {db db' : AdminDb}
    {result : Checked α} {action targetType : String} {target : α → String}
    {entryMeta : α → Record} {reply : α → AdminReply} (kept : AuthorityKept callers db db') :
    AuthorityKept callers db
      (concluded context db' result action targetType target entryMeta reply).2 := by
  cases result with
  | error e => exact kept
  | ok value => exact kept.trans (.of_same rfl rfl rfl)

theorem AuthorityKept.guarded {α : Type} {callers : Set String} {db : AdminDb} {check : Checked α}
    {next : α → Checked AdminReply × AdminDb}
    (passes : ∀ value, check = .ok value → AuthorityKept callers db (next value).2) :
    AuthorityKept callers db (guarded db check next).2 := by
  cases check with
  | error e => exact .refl db
  | ok value => exact passes value rfl

variable {callers : Set String} {config : AdminConfig} {platform : ConsolePlatform}
  {codeDigestFor : String → String} {context : AdminContext} {call : AdminCall} {body : Record} {db : AdminDb}

theorem kept_usersRoute (member : context.role ≠ .root) (method second : String) :
    Leaves (AuthorityKept {context.userId} db) (usersRoute context call body db method second) := by
  unfold usersRoute
  split
  · split
    · exact .refl db
    split
    · refine AuthorityKept.guarded fun _ passed => ?_
      exact (kept_createUser (assertCanManageUser_ok member passed).2).concluded
    · trivial
  split
  · exact .refl db
  split
  · refine AuthorityKept.guarded fun _ passed => ?_
    obtain ⟨target, found, passed⟩ := Fallible.bind_ok passed
    obtain ⟨plain, named⟩ := assertCanManageUser_ok member passed
    exact (kept_updateUser (getUser_ok found) (plain target rfl) named).concluded
  · trivial

/-- The token that a caller may manage, and its owner. -/
theorem assertCanManageToken_ok (member : context.role ≠ .root) {id : String}
    (passed : assertCanManageToken context db id = .ok ()) :
    ∃ token owner, db.tokens.find id = some token ∧
      db.users.find token.userId = some owner ∧ owner.role = .user := by
  rw [assertCanManageToken] at passed
  obtain ⟨token, stored, passed⟩ := Fallible.bind_ok passed
  obtain ⟨owner, looked, passed⟩ := Fallible.bind_ok passed
  exact ⟨token, owner, getToken_ok stored, getUser_ok looked,
    (assertCanManageUser_ok member passed).1 owner rfl⟩

theorem kept_tokensRoute (member : context.role ≠ .root) (method second third : String) :
    Leaves (AuthorityKept {context.userId} db)
      (tokensRoute config platform context call body db method second third) := by
  unfold tokensRoute
  split
  · split
    · exact .refl db
    split
    · refine AuthorityKept.guarded fun _ passed => ?_
      obtain ⟨owner, looked, passed⟩ := Fallible.bind_ok passed
      have plain := (assertCanManageUser_ok member passed).1 owner rfl
      exact (kept_createToken (getUser_ok looked) plain).concluded
    · trivial
  split
  · refine AuthorityKept.guarded fun _ passed => ?_
    obtain ⟨token, owner, stored, looked, plain⟩ := assertCanManageToken_ok member passed
    exact (kept_rotateToken stored looked plain).concluded
  split
  · exact .refl db
  split
  · refine AuthorityKept.guarded fun _ passed => ?_
    obtain ⟨token, owner, stored, looked, plain⟩ := assertCanManageToken_ok member passed
    exact (kept_updateToken stored looked plain).concluded
  split
  · refine AuthorityKept.guarded fun _ passed => ?_
    obtain ⟨token, owner, stored, looked, plain⟩ := assertCanManageToken_ok member passed
    exact (kept_deleteToken stored looked plain).concluded
  · trivial

/-- The accounts, the tokens and the codes are those of before. -/
structure SameAccounts (db db' : AdminDb) : Prop where
  users : db'.users = db.users
  tokens : db'.tokens = db.tokens
  codes : db'.codes = db.codes

theorem SameAccounts.kept {db' : AdminDb} (same : SameAccounts db db') : AuthorityKept callers db db' :=
  .of_same same.users same.tokens same.codes

theorem same_createChannel {limits : JsonLimits} {now : Int} {idBytes : List UInt8}
    {sealedKeys : Checked (List ChannelKeyDoc)} {input : Record} :
    SameAccounts db (createChannel limits now idBytes sealedKeys input db).2 := by
  rw [createChannel]
  split
  · exact ⟨rfl, rfl, rfl⟩
  split
  · exact ⟨rfl, rfl, rfl⟩
  split <;> exact ⟨rfl, rfl, rfl⟩

theorem same_editChannel {limits : JsonLimits} {now : Int} {id : String} {patch : Record} :
    SameAccounts db (editChannel limits now id patch db).2 := by
  rw [editChannel]
  split
  · exact ⟨rfl, rfl, rfl⟩
  split
  · exact ⟨rfl, rfl, rfl⟩
  split <;> exact ⟨rfl, rfl, rfl⟩

theorem same_deleteChannel {now : Int} {id : String} :
    SameAccounts db (deleteChannel now id db).2 := by
  rw [deleteChannel]
  split <;> exact ⟨rfl, rfl, rfl⟩

theorem same_replaceChannelKeys {sealedKeys : Checked (List ChannelKeyDoc)} {id : String}
    {secrets : List Json} : SameAccounts db (replaceChannelKeys sealedKeys id secrets db).2 := by
  unfold replaceChannelKeys
  split
  · exact ⟨rfl, rfl, rfl⟩
  split
  · exact ⟨rfl, rfl, rfl⟩
  split
  · exact ⟨rfl, rfl, rfl⟩
  split <;> exact ⟨rfl, rfl, rfl⟩

theorem kept_channelsRoute (method second third : String) :
    Leaves (AuthorityKept {context.userId} db) (channelsRoute config context call body db method second third) := by
  unfold channelsRoute
  split
  · refine AuthorityKept.concluded ?_
    exact .of_same rfl rfl rfl
  split
  · split
    · exact .refl db
    split
    · exact same_createChannel.kept.concluded
    · trivial
  split
  · exact same_replaceChannelKeys.kept.concluded
  split
  · exact same_editChannel.kept.concluded
  split
  · exact same_deleteChannel.kept.concluded
  · trivial

theorem kept_pricingRoute (method second : String) :
    Leaves (AuthorityKept {context.userId} db) (pricingRoute platform context call body db method second) := by
  unfold pricingRoute
  split
  · split
    · exact .refl db
    split
    · refine AuthorityKept.concluded ?_
      exact .of_same rfl rfl rfl
    · trivial
  split
  · refine AuthorityKept.guarded fun _ _ => AuthorityKept.concluded ?_
    exact .of_same rfl rfl rfl
  · trivial

theorem kept_mappingsRoute (method second : String) :
    Leaves (AuthorityKept {context.userId} db) (mappingsRoute platform context call body db method second) := by
  unfold mappingsRoute
  split
  · split
    · exact .refl db
    split
    · refine AuthorityKept.concluded ?_
      exact .of_same rfl rfl rfl
    · trivial
  split
  · refine AuthorityKept.guarded fun _ _ => AuthorityKept.concluded ?_
    exact .of_same rfl rfl rfl
  · trivial

/-- New codes are not used by anyone. -/
theorem redeemed_insertInOrder {draw : BatchDraw} {count quota : Nat} {expiresAt : Option Int}
    (id : String) :
    redeemed { db.ledger with codes := (db.codes.insertInOrder codeTaken
      (batchDocs codeDigestFor draw count quota expiresAt)).2 } id = redeemed db.ledger id := by
  refine Collection.total_insertInOrder_of_zero db.codes fun code mem => ?_
  obtain ⟨index, -, rfl⟩ := List.mem_map.mp mem
  rfl

theorem redeemed_createRedemptionBatch {draw : BatchDraw} {count quota : JsNumber}
    {expiresAt : Option Int} (id : String) :
    redeemed { db with codes := (createRedemptionBatch codeDigestFor draw count quota expiresAt
      db.codes).2 }.ledger id = redeemed db.ledger id := by
  rw [createRedemptionBatch]
  split
  · rfl
  · next amount _ =>
      have docs := @redeemed_insertInOrder codeDigestFor db draw (batchCount count) amount
        expiresAt id
      dsimp only
      split
      · next inserted => rwa [inserted] at docs
      · next inserted => rwa [inserted] at docs

theorem kept_createRedemptionBatch {draw : BatchDraw} {count quota : JsNumber}
    {expiresAt : Option Int} :
    AuthorityKept callers db { db with codes :=
      (createRedemptionBatch codeDigestFor draw count quota expiresAt db.codes).2 } where
  accounts id user found _ := by
    refine ⟨user.updatedAt, found.trans ?_⟩
    rw [redeemed_createRedemptionBatch, AccountDoc.credited, sub_self, Int.add_zero]
  raised _ user' found elevated := ⟨user', found, elevated⟩
  tokens _ _ _ _ := rfl
  redemptions id _ := redeemed_createRedemptionBatch id

theorem kept_redemptionRoute (method : String) :
    Leaves (AuthorityKept {context.userId} db)
      (redemptionRoute platform codeDigestFor context call body db method) := by
  unfold redemptionRoute
  split
  · exact .refl db
  split
  · exact kept_createRedemptionBatch.concluded
  · trivial

theorem kept_redeemRoute (method : String) :
    Leaves (AuthorityKept {context.userId} db) (redeemRoute codeDigestFor context call body db method) := by
  unfold redeemRoute
  split
  · exact kept_redeem.concluded
  · trivial

theorem kept_route (member : context.role ≠ .root) (head second third method : String) :
    Leaves (AuthorityKept {context.userId} db)
      (route config platform codeDigestFor context call body db head second third method) := by
  unfold route
  split
  · exact .refl db
  · exact .refl db
  · exact .refl db
  · exact kept_usersRoute member method second
  · exact kept_tokensRoute member method second third
  · exact kept_channelsRoute method second third
  · exact kept_pricingRoute method second
  · exact kept_mappingsRoute method second
  · unfold groupRatiosRoute
    split
    · exact .refl db
    split
    · refine AuthorityKept.concluded ?_
      exact .of_same rfl rfl rfl
    · trivial
  · exact kept_redemptionRoute method
  · exact kept_redeemRoute method
  · unfold settingsRoute
    split
    · exact .refl db
    split
    · refine AuthorityKept.concluded ?_
      exact .of_same rfl rfl rfl
    · trivial
  · split
    · exact .refl db
    · trivial
  · split
    · exact .refl db
    · trivial
  · trivial

end Routes

section Runs

variable {config : AdminConfig} {platform : ConsolePlatform} {codeDigestFor : String → String}

/-- The callers of a run. -/
def callersOf (config : AdminConfig) (platform : ConsolePlatform)
    (run : List (Machine.Event AdminDb AdminCall (Checked AdminReply))) : Set String :=
  { id | ∃ e ∈ run, ∃ context,
    callerOf config platform e.action e.before = .ok context ∧ context.userId = id }

theorem kept_adminStep {call : AdminCall} {db : AdminDb} {callers : Set String}
    (member : ∀ context, callerOf config platform call db = .ok context →
      context.role ≠ .root ∧ context.userId ∈ callers) :
    AuthorityKept callers db (adminStep config platform codeDigestFor db call).1 := by
  change AuthorityKept callers db (handleAdminRequest config platform codeDigestFor call db).2
  rw [handleAdminRequest]
  split
  · exact .refl db
  next context admitted =>
  obtain ⟨plain, among⟩ := member context admitted
  split
  · exact .refl db
  next body _ =>
  have kept := @kept_route config platform codeDigestFor context call body db plain
    (segment call 0) (segment call 1) (segment call 2) call.method.toUpper
  cases outcome : route config platform codeDigestFor context call body db (segment call 0)
      (segment call 1) (segment call 2) call.method.toUpper with
  | none => exact .refl db
  | some result =>
      rw [outcome] at kept
      exact kept.mono (Set.singleton_subset_iff.mpr among)

end Runs

section Sample

/-- A request with the key of `u1`. -/
def sampleCall (method : String) (segments : List String) : AdminCall where
  method := method
  segments := segments
  relay := sampleRequest
  query _ := none
  body := .ok ""
  world := emptyCacheWorld
  verifiedAt := 0
  revocationsReadable := true
  revocations := .empty
  requestId := "r1"
  now := 1
  commit := .committed
  attempts := .ok ()
  idBytes := []
  keyPrefix := ""
  secret := ""
  batch := ⟨"", fun _ => [], fun _ => ""⟩
  sealedKeys := .ok []
  probed channels := channels
  pricingReadFails := false

def sampleAdminDb : AdminDb where
  users :=
    ⟨[sampleAccount "u1" (by decide) .admin, sampleAccount "u2" (by decide) .root,
      sampleAccount "u3" (by decide) .user], by decide⟩
  tokens := .empty
  codes := .empty
  channels := .empty
  channelKeys := .empty
  abilities := .empty
  pricing := ⟨.empty, .empty⟩
  mappings := noMappings
  groupRatios := .empty
  settings := .empty
  trail := []

/-- An administrator edits the root account, which is refused, and a member, which is not. -/
def sampleCalls : List AdminCall :=
  [sampleCall "PATCH" ["users", "u2"], sampleCall "PATCH" ["users", "u3"]]

end Sample

end Gateway.Admin
