import Gateway.Admin.SignInRuns

/-!
The accounts, while sign-in requests are under way.

A session is started for an account that stood in the database, enabled and with what the
request proved, at a moment of the same request; and whatever interleaves, the requests of
the public leave of each account everything but the time of its last sign-in and the form
in which its password is kept.
-/

namespace Gateway.Admin.SignIn

open Gateway.Auth Gateway.RateLimit Transaction Dialogue

section Vouched

variable {config : SignInConfig} {platform : SignInPlatform}

variable (config platform) in
/-- The account stood in the database when the request asked for it, or the request made it. -/
inductive Stood (events : List (SignInEvent config platform)) (number : Nat) (req : AdminRequest)
    (said : History) (user : AccountDoc) : Prop where
  | password (e : SignInEvent config platform) (mem : e ∈ events) (world : World)
      (answered : e.action = .answer number world) (username password : String)
      (presents : Presents config req username password)
      (found : findUserByUsername e.before.state.users username = some user)
      (enabled : user.status = .enabled)
      (verified : verifyPassword platform.pbkdf2 password user.credentials.passwordHash
        user.credentials.passwordSalt = true)
  | github (e : SignInEvent config platform) (mem : e ∈ events) (world : World)
      (answered : e.action = .answer number world) (githubId : String)
      (linked : Linked config req said githubId)
      (found : e.before.state.users.findWhere
        (fun other => other.credentials.githubId == some githubId) = some user)
      (enabled : user.status = .enabled)
  | created (e : SignInEvent config platform) (mem : e ∈ events) (world : World)
      (answered : e.action = .answer number world)
      (absent : e.before.state.users.find user.id = none)
      (written : e.after.state.users.find user.id = some user) (powerless : Powerless user)
      (said : History) (own : OwnCredentials config platform req said user.credentials)

theorem reads_ok {α : Type} {w : World} {found answer : α} (read : reads w found = .ok answer) :
    found = answer := by
  rw [reads] at read
  split at read
  · exact Except.ok.inj read
  · cases read

theorem insertUser_ok {w : World} {user : AccountDoc} {users : Collection AccountDoc} {u : Unit}
    (done : (atomically .fault w.commit (insertAccount user) users).1 = .ok u) :
    users.find user.id = none ∧
      (atomically .fault w.commit (insertAccount user) users).2.find user.id = some user := by
  cases atomically_cases .fault w.commit (insertAccount user) users with
  | inl undone =>
      obtain ⟨e, failed⟩ := undone.2
      rw [failed] at done
      cases done
  | inr written =>
      obtain ⟨_, effect, -⟩ := written
      rw [insertAccount] at effect
      split at effect
      · cases effect
      split at effect
      · cases effect
      split at effect
      · cases effect
      · next inserted =>
          obtain ⟨fresh, rfl⟩ := Collection.insertOne_eq_some inserted
          rw [← congrArg Prod.snd effect]
          exact ⟨fresh, (Collection.find_insertFresh users user fresh user.id).trans (if_pos rfl)⟩

/-- What was told in a conversation is what its answers were. -/
theorem stood_of_proved {db : SignInDb} {actions : List (Action AdminRequest World Outside)}
    {number : Nat} {req : AdminRequest}
    (begun : (signInRun config platform db actions).callOf number = some req) {user : AccountDoc}
    (proved : Proved config platform req
      ((signInRun config platform db actions).saidIn number) user) :
    Stood config platform (signInTrace config platform db actions) number req
      ((signInRun config platform db actions).saidIn number) user := by
  have answer {q : Ask} {a : q.Answer}
      (told : Told ((signInRun config platform db actions).saidIn number) q a) :
      ∃ e ∈ signInTrace config platform db actions, ∃ world, e.action = .answer number world ∧
        Grounded config platform req (e.before.saidIn number) q ∧
          answerAsk config platform e.before.state world q = (.ok a, e.after.state) := by
    obtain ⟨e, mem, reply⟩ := exists_event begun told
    have effect := (Machine.mem_trace mem).1
    rw [reply] at effect
    obtain ⟨world, answered, -, -, grounded, answer⟩ := remark_asked handleAuthRequest_keeps effect
    exact ⟨e, mem, world, answered, grounded, answer⟩
  cases proved with
  | password password passed =>
      obtain ⟨username, presents, told, enabled, verified⟩ := passed
      obtain ⟨e, mem, world, answered, -, effect⟩ := answer told
      exact .password e mem world answered username password presents
        (reads_ok (congrArg Prod.fst effect)) enabled verified
  | github githubId linked told enabled =>
      obtain ⟨e, mem, world, answered, -, effect⟩ := answer told
      exact .github e mem world answered githubId linked (reads_ok (congrArg Prod.fst effect)) enabled
  | created told =>
      obtain ⟨e, mem, world, answered, grounded, effect⟩ := answer told
      have done : (atomically .fault world.commit (insertAccount user) e.before.state.users).1 =
          .ok () := congrArg Prod.fst effect
      have users : (atomically .fault world.commit (insertAccount user) e.before.state.users).2 =
          e.after.state.users := congrArg (fun answered => (Prod.snd answered).users) effect
      obtain ⟨absent, written⟩ := insertUser_ok done
      exact .created e mem world answered absent (users ▸ written) grounded.1 _ grounded.2

/-- Whatever else goes on, a request that is answered has started a session for an account that it
has proved or made, or has set no session at all. -/
theorem sessions_vouched (db : SignInDb) (actions : List (Action AdminRequest World Outside))
    {number : Nat} {req : AdminRequest} {reply : AuthReply}
    (begun : (signInRun config platform db actions).callOf number = some req)
    (done : (signInRun config platform db actions).resultOf number = some reply) :
    (∃ user session rest,
      Stood config platform (signInTrace config platform db actions) number req
        ((signInRun config platform db actions).saidIn number) user ∧
      Started config platform req ((signInRun config platform db actions).saidIn number) user
        session ∧
      reply.cookies = sessionCookies (secureCookies config) session.token session.csrf ++ rest) ∨
    ∀ cookie ∈ reply.cookies, cookie ∈ clearedSessionCookies (secureCookies config) ∨
      ∃ stateId ttl, cookie = oauthStateCookie config stateId ttl := by
  have ends := ends_of_result handleAuthRequest_keeps begun done
  cases ends with
  | started user session rest proved started cookies others =>
      exact .inl ⟨user, session, rest, stood_of_proved begun proved, started, cookies⟩
  | unstarted cookies => exact .inr cookies

theorem sessions_vouched_sample : ∃ req reply,
    (signInRun sampleSignIn sampleSignInPlatform sampleSignInDb sampleActions).callOf 1 = some req ∧
      (signInRun sampleSignIn sampleSignInPlatform sampleSignInDb sampleActions).resultOf 1 =
        some reply ∧
      ((∃ user session rest,
        Stood sampleSignIn sampleSignInPlatform
          (signInTrace sampleSignIn sampleSignInPlatform sampleSignInDb sampleActions) 1 req
          ((signInRun sampleSignIn sampleSignInPlatform sampleSignInDb sampleActions).saidIn 1)
          user ∧
        Started sampleSignIn sampleSignInPlatform req ((signInRun sampleSignIn
          sampleSignInPlatform sampleSignInDb sampleActions).saidIn 1) user session ∧
        reply.cookies =
          sessionCookies (secureCookies sampleSignIn) session.token session.csrf ++ rest) ∨
      ∀ cookie ∈ reply.cookies, cookie ∈ clearedSessionCookies (secureCookies sampleSignIn) ∨
        ∃ stateId ttl, cookie = oauthStateCookie sampleSignIn stateId ttl) := by
  have begins : ((signInRun sampleSignIn sampleSignInPlatform sampleSignInDb sampleActions).callOf
      1).isSome = true := by decide +kernel
  have ends : ((signInRun sampleSignIn sampleSignInPlatform sampleSignInDb sampleActions).resultOf
      1).isSome = true := by decide +kernel
  obtain ⟨req, begun⟩ := Option.isSome_iff_exists.mp begins
  obtain ⟨reply, done⟩ := Option.isSome_iff_exists.mp ends
  exact ⟨req, reply, begun, done, sessions_vouched sampleSignInDb sampleActions begun done⟩

end Vouched

section Kept

variable (pbkdf2 : Derivation)

/-- The same credentials, or those of the older form in the present one: the password that passed
still does. -/
def CredentialsKept (credentials credentials' : Credentials) : Prop :=
  credentials' = credentials ∨
    needsPasswordUpgrade credentials.passwordHash = true ∧
    needsPasswordUpgrade credentials'.passwordHash = false ∧
    credentials'.githubId = credentials.githubId ∧
    ∃ password,
      verifyPassword pbkdf2 password credentials.passwordHash credentials.passwordSalt = true ∧
      verifyPassword pbkdf2 password credentials'.passwordHash credentials'.passwordSalt = true

/-- Nothing of the account is changed but the form of its credentials and its last sign-in. -/
structure AccountKept (user user' : AccountDoc) : Prop where
  rest : user' =
    { user with credentials := user'.credentials, lastLoginAt := user'.lastLoginAt }
  credentials : CredentialsKept pbkdf2 user.credentials user'.credentials

/-- All accounts are kept, and those that are new have no authority and no funds. -/
structure AccountsKept (users users' : Collection AccountDoc) : Prop where
  kept : ∀ id user, users.find id = some user →
    ∃ user', users'.find id = some user' ∧ AccountKept pbkdf2 user user'
  added : ∀ id user', users'.find id = some user' → users.find id = none → Powerless user'

variable {pbkdf2}

theorem CredentialsKept.trans {a b c : Credentials} (first : CredentialsKept pbkdf2 a b)
    (second : CredentialsKept pbkdf2 b c) : CredentialsKept pbkdf2 a c := by
  cases first with
  | inl same => exact same ▸ second
  | inr upgraded =>
      cases second with
      | inl same => exact same ▸ .inr upgraded
      | inr again => exact absurd (upgraded.2.1.symm.trans again.1) Bool.false_ne_true

namespace AccountKept

variable {user user' user'' : AccountDoc}

theorem refl (user : AccountDoc) : AccountKept pbkdf2 user user := ⟨rfl, .inl rfl⟩

theorem trans (first : AccountKept pbkdf2 user user') (second : AccountKept pbkdf2 user' user'') :
    AccountKept pbkdf2 user user'' where
  rest := by
    have same := second.rest
    rw [first.rest] at same
    exact same
  credentials := first.credentials.trans second.credentials

theorem powerless (kept : AccountKept pbkdf2 user user') (new : Powerless user) :
    Powerless user' := by
  rw [kept.rest]
  exact ⟨new.role, new.status, new.quota, new.group, new.used, new.rpm, new.tpm⟩

end AccountKept

namespace AccountsKept

variable {users users' users'' : Collection AccountDoc}

theorem refl (users : Collection AccountDoc) : AccountsKept pbkdf2 users users where
  kept _ user found := ⟨user, found, .refl user⟩
  added id user' found absent := by
    rw [found] at absent
    cases absent

theorem trans (first : AccountsKept pbkdf2 users users')
    (second : AccountsKept pbkdf2 users' users'') : AccountsKept pbkdf2 users users'' where
  kept id user found := by
    obtain ⟨user', found', kept⟩ := first.kept id user found
    obtain ⟨user'', found'', kept'⟩ := second.kept id user' found'
    exact ⟨user'', found'', kept.trans kept'⟩
  added id user'' found absent := by
    cases between : users'.find id with
    | none => exact second.added id user'' found between
    | some user' =>
        obtain ⟨other, found', kept⟩ := second.kept id user' between
        rw [found] at found'
        cases found'
        exact kept.powerless (first.added id user' between absent)

theorem modify {id : String} {update : Update AccountDoc}
    (kept : ∀ user, users.find id = some user → AccountKept pbkdf2 user (update.apply user)) :
    AccountsKept pbkdf2 users (users.modify id update) where
  kept other user found := by
    refine ⟨_, Collection.find_modify_some found id update, ?_⟩
    split
    · next same => exact kept user (same ▸ found)
    · exact .refl user
  added other user' found absent := by
    obtain ⟨user, before, -⟩ := Collection.find_modify_inv found
    rw [before] at absent
    cases absent

theorem insertFresh {user : AccountDoc} (fresh : users.find (Document.key user) = none)
    (new : Powerless user) : AccountsKept pbkdf2 users (users.insertFresh user fresh) where
  kept id other found := by
    refine ⟨other, ?_, .refl other⟩
    rw [Collection.find_insertFresh, if_neg]
    · exact found
    · rintro rfl
      rw [fresh] at found
      cases found
  added id user' found absent := by
    rw [Collection.find_insertFresh] at found
    split at found
    · cases found
      exact new
    · rw [absent] at found
      cases found

end AccountsKept

end Kept

section Public

variable {config : SignInConfig} {platform : SignInPlatform}

theorem accountsKept_atomically {α : Type} {pbkdf2 : Derivation} {commit : Commit}
    {work : Collection AccountDoc → Checked α × Collection AccountDoc} {users : Collection AccountDoc}
    (kept : ∀ answer users', work users = (.ok answer, users') → AccountsKept pbkdf2 users users') :
    AccountsKept pbkdf2 users (atomically .fault commit work users).2 := by
  cases atomically_cases .fault commit work users with
  | inl undone =>
      rw [undone.1]
      exact .refl users
  | inr written =>
      obtain ⟨answer, effect, -⟩ := written
      exact kept answer _ effect

/-- A hash is only replaced where it is the one that the password passed. -/
theorem accountKept_upgrade {req : AdminRequest} {said : History} {id : String}
    {passwordHash passwordSalt : Option String} {record : PasswordRecord}
    (grounded : Grounded config platform req said (.upgrade id passwordHash passwordSalt record))
    (user : AccountDoc) :
    AccountKept platform.pbkdf2 user
      ((upgradeUpdate passwordHash passwordSalt record).apply user) := by
  obtain ⟨seen, password, passed, -, rfl, rfl, legacy, salt, hashed⟩ := grounded
  obtain ⟨-, -, -, -, verified⟩ := passed
  obtain ⟨verifies, present⟩ := verifyPassword_hashPassword hashed
  rw [upgradeUpdate]
  dsimp only
  split
  · next same =>
      refine ⟨rfl, .inr ⟨same.1 ▸ legacy, present, rfl, password, ?_, verifies⟩⟩
      rw [same.1, same.2]
      exact verified
  · exact .refl user

theorem accountsKept_answer (db : SignInDb) (w : World) {req : AdminRequest} {said : History}
    {q : Ask} (grounded : Grounded config platform req said q) :
    AccountsKept platform.pbkdf2 db.users (answerAsk config platform db w q).2.users := by
  cases q with
  | upgrade id passwordHash passwordSalt record =>
      change AccountsKept platform.pbkdf2 db.users (atomically .fault w.commit (fun users =>
        ((.ok () : Checked Unit), users.modify id
          (upgradeUpdate passwordHash passwordSalt record))) db.users).2
      refine accountsKept_atomically fun _ users' effect => ?_
      cases effect
      exact .modify fun user _ => accountKept_upgrade grounded user
  | signedIn id =>
      change AccountsKept platform.pbkdf2 db.users (atomically .fault w.commit (fun users =>
        ((.ok () : Checked Unit), users.modify id (signedInUpdate w.now))) db.users).2
      refine accountsKept_atomically fun _ users' effect => ?_
      cases effect
      exact .modify fun user _ => ⟨rfl, .inl rfl⟩
  | insertUser user =>
      refine accountsKept_atomically fun _ users' effect => ?_
      rw [insertAccount] at effect
      split at effect
      · cases effect
      split at effect
      · cases effect
      split at effect
      · cases effect
      · next inserted =>
          obtain ⟨fresh, rfl⟩ := Collection.insertOne_eq_some inserted
          cases effect
          exact .insertFresh fresh grounded.1
  | audit entry =>
      rw [answerAsk]
      split <;> exact .refl db.users
  | _ => exact .refl db.users

/-- A step of the public keeps the accounts. -/
theorem accountsKept_step (sys : System (signInService config platform))
    {action : Action AdminRequest World Outside}
    (edits : ∀ other, action = .outside other →
      AccountsKept platform.pbkdf2 sys.state.users (other.change sys.state).users) :
    AccountsKept platform.pbkdf2 sys.state.users
      (step (signInService config platform) sys action).1.state.users := by
  rcases step_state handleAuthRequest_keeps sys action with same | outside | answered
  · rw [same]
    exact .refl _
  · obtain ⟨other, named, same⟩ := outside
    rw [same]
    exact edits other named
  · obtain ⟨number, req, world, q, -, grounded, same⟩ := answered
    rw [same]
    exact accountsKept_answer sys.state world grounded

end Public

end Gateway.Admin.SignIn
