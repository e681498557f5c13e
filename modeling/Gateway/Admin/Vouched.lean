import Gateway.Admin.SignIn

/-!
What a request has been told by the time that it asks for something.

Each question of a handler rests on answers before it: a hash is replaced by one of the
password that passed against it, a code is exchanged once its state was claimed, and a
session is started for an account that the request has proved or made.
-/

namespace Gateway.Admin.SignIn

open Gateway.Auth Gateway.RateLimit Transaction Dialogue

abbrev History := List (Utterance Thrown Ask Ask.Answer)

section Grounds

variable (config : SignInConfig) (platform : SignInPlatform) (req : AdminRequest) (said : History)

/-- The question was answered so. -/
def Told (question : Ask) (a : question.Answer) : Prop :=
  (⟨question, .ok a⟩ : Utterance Thrown Ask Ask.Answer) ∈ said

def stateOf : String := (req.query "state").getD ""

def codeOf : String := (req.query "code").getD ""

/-- The state that the browser holds. -/
def browserStateOf : String :=
  readCookie platform.toPlatform (req.relay.headers "cookie") OAUTH_STATE_COOKIE

/-- The name and the password that a request carries. -/
def Presents (username password : String) : Prop :=
  ∃ body, readBody config req = .ok body ∧ username = jsTrim (textOr (body.field "username")) ∧
    password = textOr (body.field "password")

/-- After the state was claimed, GitHub named the owner of the code. -/
def Linked (githubId : String) : Prop :=
  ∃ row text token ok profileText profile,
    Told said (.claim (stateOf req)) (some row) ∧ Told said (.exchange (codeOf req)) text ∧
    accessToken config text = .ok token ∧ Told said (.profile token) (ok, profileText) ∧
    githubUser config ok profileText = .ok profile ∧ githubId = profile.id

/-- The password of the request was the one of the account. -/
def Passed (user : AccountDoc) (password : String) : Prop :=
  ∃ username, Presents config req username password ∧
    Told said (.userNamed username) (some user) ∧ user.status = .enabled ∧
    verifyPassword platform.pbkdf2 password user.credentials.passwordHash
      user.credentials.passwordSalt = true

inductive Proved (user : AccountDoc) : Prop where
  | password (password : String) (passed : Passed config platform req said user password)
  | github (githubId : String) (linked : Linked config req said githubId)
      (found : Told said (.userOfGithub githubId) (some user)) (enabled : user.status = .enabled)
  | created (inserted : Told said (.insertUser user) ())

/-- An account without authority, funds or limits of its own. -/
structure Powerless (user : AccountDoc) : Prop where
  role : user.role = .user
  status : user.status = .enabled
  quota : user.quota = 0
  group : user.group = "default"
  used : user.usedQuota = 0
  rpm : user.rpmLimit = none
  tpm : user.tpmLimit = none

/-- The credentials of a new account: a password of the request's own, or its GitHub identity. -/
def OwnCredentials (credentials : Credentials) : Prop :=
  (∃ password salt record, hashPassword platform.pbkdf2 password salt = .ok record ∧
    credentials = ⟨some record.passwordHash, some record.passwordSalt, none⟩) ∨
  ∃ githubId, Linked config req said githubId ∧ credentials = ⟨none, none, some githubId⟩

/-- What a question rests on. -/
def Grounded : Ask → Prop
  | .attempt key limit windowSec _ => ∀ ipHash, key = attemptKey ipHash →
      limit = MAX_LOGIN_ATTEMPTS ∧ windowSec = ATTEMPT_WINDOW_SEC
  | .userNamed _ => req.segments.headD "" = "login" →
      said = [⟨.attempt (attemptKey (ipHashOf config platform req)) MAX_LOGIN_ATTEMPTS
        ATTEMPT_WINDOW_SEC "too many sign-in attempts, try again later", .ok ()⟩]
  | .upgrade id passwordHash passwordSalt record =>
      ∃ user password, Passed config platform req said user password ∧
        id = user.id ∧ passwordHash = user.credentials.passwordHash ∧
        passwordSalt = user.credentials.passwordSalt ∧
        needsPasswordUpgrade user.credentials.passwordHash = true ∧
        ∃ salt, hashPassword platform.pbkdf2 password salt = .ok record
  | .signedIn id => ∃ user : AccountDoc, user.id = id ∧ Proved config platform req said user
  | .insertUser user => Powerless user ∧ OwnCredentials config platform req said user.credentials
  | .session other => other = req
  | .revoke session => Told said (.session req) (some session) ∧
      assertCsrf config.toAdminConfig platform.toConsolePlatform req session = .ok ()
  | .insertState state => ∃ now, Told said .clock now ∧
      state.expiresAt = now + STATE_TTL_MS ∧ state.consumedAt = none
  | .claim stateId => stateId = stateOf req ∧ stateId = browserStateOf platform req
  | .exchange code => code = codeOf req ∧ stateOf req = browserStateOf platform req ∧
      ∃ row, said = [⟨.claim (stateOf req), .ok (some row)⟩]
  | .userOfGithub githubId => Linked config req said githubId
  | _ => True

/-- A session was started, with an id and an expiry of its own. -/
def Started (user : AccountDoc) (session : IssuedSession) : Prop :=
  ∃ sid now, Told said (.draw 16) sid ∧ Told said .clock now ∧
    createSession config.toAdminConfig platform.toConsolePlatform req.world.ready sid.toList
      (now / 1000).toNat user = .ok session

/-- What an answer hands out. -/
inductive Answered (reply : AuthReply) : Prop where
  | started (user : AccountDoc) (session : IssuedSession) (rest : List String)
      (proved : Proved config platform req said user)
      (started : Started config platform req said user session)
      (cookies : reply.cookies =
        sessionCookies (secureCookies config) session.token session.csrf ++ rest)
      (others : ∀ c ∈ rest, c = oauthStateCookie config "" 0)
  | unstarted (cookies : ∀ c ∈ reply.cookies, c ∈ clearedSessionCookies (secureCookies config) ∨
      ∃ stateId ttl, c = oauthStateCookie config stateId ttl)

end Grounds

section Later

variable {config : SignInConfig} {platform : SignInPlatform} {req : AdminRequest}
  {said later : History}

theorem Told.mono {question : Ask} {a : question.Answer} (told : Told said question a)
    (le : said ⊆ later) : Told later question a :=
  le told

theorem told_last (said : History) (question : Ask) (a : question.Answer) :
    Told (said ++ [⟨question, .ok a⟩]) question a :=
  List.mem_append_right _ List.mem_cons_self

theorem subset_last (le : said ⊆ later) (u : Utterance Thrown Ask Ask.Answer) :
    said ⊆ later ++ [u] :=
  List.Subset.trans le (List.subset_append_left _ _)

theorem Linked.mono {githubId : String} (linked : Linked config req said githubId)
    (le : said ⊆ later) : Linked config req later githubId := by
  obtain ⟨row, text, token, ok, profileText, profile, claimed, exchanged, read, shown, parsed, id⟩ :=
    linked
  exact ⟨row, text, token, ok, profileText, profile, claimed.mono le, exchanged.mono le, read,
    shown.mono le, parsed, id⟩

theorem Passed.mono {user : AccountDoc} {password : String}
    (passed : Passed config platform req said user password) (le : said ⊆ later) :
    Passed config platform req later user password := by
  obtain ⟨username, presents, found, enabled, verified⟩ := passed
  exact ⟨username, presents, found.mono le, enabled, verified⟩

theorem Proved.mono {user : AccountDoc} (proved : Proved config platform req said user)
    (le : said ⊆ later) : Proved config platform req later user := by
  cases proved with
  | password password passed => exact .password password (passed.mono le)
  | github githubId linked found enabled =>
      exact .github githubId (linked.mono le) (found.mono le) enabled
  | created inserted => exact .created (inserted.mono le)

theorem OwnCredentials.mono {credentials : Credentials}
    (own : OwnCredentials config platform req said credentials) (le : said ⊆ later) :
    OwnCredentials config platform req later credentials := by
  cases own with
  | inl hashed => exact .inl hashed
  | inr linked =>
      obtain ⟨githubId, linked, same⟩ := linked
      exact .inr ⟨githubId, linked.mono le, same⟩

end Later

section Parts

variable {config : SignInConfig} {platform : SignInPlatform} {req : AdminRequest} {said : History}

theorem refuse_ok {refused : Prop} [Decidable refused] {error : Thrown} {u : Unit}
    (passed : refuse refused error = .ok u) : ¬refused := by
  rw [refuse] at passed
  split at passed
  · cases passed
  · next allowed => exact allowed

theorem startSession_keeps (user : AccountDoc) :
    Keeps (Grounded config platform req)
      (fun later session => said ⊆ later ∧ Started config platform req later user session)
      said (startSession config platform req user) := by
  unfold startSession
  refine keeps_call_bind trivial fun sid => keeps_call_bind trivial fun now => ?_
  refine keeps_lift.mpr fun session created => ?_
  refine ⟨subset_last (subset_last (List.Subset.refl said) _) _, sid, now, ?_, told_last _ _ _,
    created⟩
  exact (told_last said (.draw 16) sid).mono (List.subset_append_left _ _)

theorem signInAs_keeps {user : AccountDoc} (proved : Proved config platform req said user)
    (action : String) :
    Keeps (Grounded config platform req)
      (fun later session => said ⊆ later ∧ Started config platform req later user session)
      said (signInAs config platform req user action) := by
  unfold signInAs
  refine keeps_bind.mpr ((startSession_keeps user).mono (fun _ _ => id) ?_)
  intro later session started
  refine keeps_call_bind ⟨user, rfl, proved.mono started.1⟩ fun _ => keeps_call_bind trivial fun _ => ?_
  obtain ⟨le, sid, now, drawn, clock, created⟩ := started
  have whole := subset_last (subset_last (List.Subset.refl later) ⟨.signedIn user.id, .ok ()⟩)
    ⟨.audit ⟨user.id, user.role, action, "user", user.id, [], ipHashOf config platform req⟩, .ok ()⟩
  exact ⟨List.Subset.trans le whole, sid, now, drawn.mono whole, clock.mono whole, created⟩

theorem upgradePassword_keeps {user : AccountDoc} {password : String}
    (passed : Passed config platform req said user password) :
    Keeps (Grounded config platform req) (fun later _ => said ⊆ later)
      said (upgradePassword platform user password) := by
  unfold upgradePassword
  split
  · next legacy =>
      refine keeps_call_bind trivial fun salt => keeps_lift_bind fun record hashed => ?_
      have le := subset_last (List.Subset.refl said) ⟨.draw SALT_BYTES, .ok salt⟩
      refine keeps_call.mpr ⟨?_, fun _ => subset_last le _⟩
      exact ⟨user, password, passed.mono le, rfl, rfl, rfl, legacy, salt, hashed⟩
  · exact List.Subset.refl said

theorem field_publicInput (username displayName email : Option Json) :
    (publicInput username displayName email).field "role" = some (.str "user") ∧
      (publicInput username displayName email).field "status" = none ∧
      (publicInput username displayName email).field "quota" = none ∧
      (publicInput username displayName email).field "group" = none := by
  cases username <;> cases displayName <;> cases email <;> exact ⟨rfl, rfl, rfl, rfl⟩

theorem powerless_newAccount {username displayName email : Option Json} {idBytes : List UInt8}
    {now : Int} {name : String} {credentials : Credentials} {user : AccountDoc}
    (made : newAccount idBytes now name (publicInput username displayName email) credentials =
      .ok user) : Powerless user ∧ user.credentials = credentials := by
  obtain ⟨role, status, quota, group⟩ := field_publicInput username displayName email
  rw [newAccount, role, status, quota, group] at made
  cases made
  exact ⟨⟨rfl, rfl, rfl, rfl, rfl, rfl, rfl⟩, rfl⟩

theorem createUser_keeps (other : req.segments.headD "" ≠ "login")
    (username displayName email : Option Json) {credentials : Credentials}
    (own : OwnCredentials config platform req said credentials) :
    Keeps (Grounded config platform req)
      (fun later user => said ⊆ later ∧ Told later (.insertUser user) () ∧ user.status = .enabled)
      said (createUser (publicInput username displayName email) credentials) := by
  unfold createUser
  refine keeps_lift_bind fun name _ => keeps_call_bind (fun login => absurd login other) fun found => ?_
  refine keeps_lift_bind fun _ _ => keeps_call_bind trivial fun now => keeps_call_bind trivial fun id => ?_
  refine keeps_lift_bind fun user made => ?_
  obtain ⟨powerless, same⟩ := powerless_newAccount made
  have le := subset_last (subset_last (subset_last (List.Subset.refl said)
    ⟨.userNamed name, .ok found⟩) ⟨.clock, .ok now⟩) ⟨.draw 12, .ok id⟩
  refine keeps_call_bind ⟨powerless, same ▸ own.mono le⟩ fun _ => ?_
  exact ⟨subset_last le _, told_last _ _ _, powerless.status⟩

/-- The code is exchanged right after the claim. -/
theorem fetchGithubUser_keeps (browser : stateOf req = browserStateOf platform req)
    {row : OAuthStateDoc} (claimed : said = [⟨.claim (stateOf req), .ok (some row)⟩]) :
    Keeps (Grounded config platform req)
      (fun later profile => said ⊆ later ∧ Linked config req later profile.id)
      said (fetchGithubUser config (codeOf req)) := by
  unfold fetchGithubUser
  refine keeps_call_bind ⟨rfl, browser, row, claimed⟩ fun text => keeps_lift_bind fun token read => ?_
  refine keeps_call_bind trivial fun shown => keeps_lift.mpr fun profile parsed => ?_
  have first := subset_last (List.Subset.refl said) ⟨.exchange (codeOf req), .ok text⟩
  have le := subset_last first ⟨.profile token, .ok shown⟩
  refine ⟨le, row, text, token, shown.1, shown.2, profile, ?_, ?_, read, told_last _ _ _, parsed, rfl⟩
  · exact le (claimed ▸ List.mem_cons_self)
  · exact (told_last said (.exchange (codeOf req)) text).mono (List.subset_append_left _ _)

theorem freeUsername_keeps (other : req.segments.headD "" ≠ "login") (plain : String) :
    Keeps (Grounded config platform req) (fun later _ => said ⊆ later) said (freeUsername plain) := by
  unfold freeUsername
  refine keeps_call_bind (fun login => absurd login other) fun taken => ?_
  have le := subset_last (List.Subset.refl said) ⟨.userNamed plain, .ok taken⟩
  split
  · exact keeps_call_bind trivial fun mark => subset_last le _
  · exact le

theorem registerGithubUser_keeps (other : req.segments.headD "" ≠ "login") {profile : GithubUser}
    (linked : Linked config req said profile.id) :
    Keeps (Grounded config platform req)
      (fun later user => said ⊆ later ∧ Proved config platform req later user)
      said (registerGithubUser config platform req profile) := by
  unfold registerGithubUser
  refine keeps_lift_bind fun _ _ => ?_
  refine keeps_bind.mpr ((freeUsername_keeps other _).mono (fun _ _ => id) fun later username le => ?_)
  have own : OwnCredentials config platform req later ⟨none, none, some profile.id⟩ :=
    .inr ⟨profile.id, linked.mono le, rfl⟩
  refine keeps_bind.mpr ((createUser_keeps other _ _ _ own).mono (fun _ _ => id) ?_)
  intro final user made
  have whole := subset_last (List.Subset.refl final) ⟨.audit ⟨user.id, .user,
    "auth.github.register", "user", user.id, [], ipHashOf config platform req⟩, .ok ()⟩
  refine keeps_call_bind trivial fun _ => ⟨?_, .created (made.2.1.mono whole)⟩
  exact List.Subset.trans le (List.Subset.trans made.1 whole)

theorem githubAccount_keeps (other : req.segments.headD "" ≠ "login") {profile : GithubUser}
    (linked : Linked config req said profile.id) :
    Keeps (Grounded config platform req)
      (fun later user => said ⊆ later ∧
        (user.status = .enabled → Proved config platform req later user))
      said (githubAccount config platform req profile) := by
  unfold githubAccount
  refine keeps_call_bind linked fun found => ?_
  have le := subset_last (List.Subset.refl said) ⟨.userOfGithub profile.id, .ok found⟩
  cases found with
  | none =>
      refine (registerGithubUser_keeps other (linked.mono le)).mono (fun _ _ => id) ?_
      exact fun later user proved => ⟨List.Subset.trans le proved.1, fun _ => proved.2⟩
  | some user =>
      exact ⟨le, .github profile.id (linked.mono le) (told_last _ _ _)⟩

end Parts

section Handlers

variable {config : SignInConfig} {platform : SignInPlatform} {req : AdminRequest}

theorem clears (reply : AuthReply)
    (cookies : reply.cookies = clearedSessionCookies (secureCookies config)) (said : History) :
    Answered config platform req said reply :=
  .unstarted fun _ mem => .inl (cookies ▸ mem)

/-- The attempts to sign in have counters of their own. -/
theorem other_attempts (rest ipHash : String) :
    "register:att:" ++ rest ≠ attemptKey ipHash ∧ "oauth:att:" ++ rest ≠ attemptKey ipHash := by
  have first {mark : String} {c : Char} {cs : List Char} (begins : mark.toList = c :: cs)
      (differs : c ≠ 'l') : mark ++ rest ≠ attemptKey ipHash := by
    intro same
    have chars := congrArg (fun text => text.toList.head?) same
    beta_reduce at chars
    rw [attemptKey, String.toList_append, String.toList_append, begins] at chars
    exact differs (Option.some.inj chars)
  exact ⟨first rfl (by decide), first rfl (by decide)⟩

theorem login_keeps : Keeps (Grounded config platform req) (Answered config platform req) []
    (login config platform req) := by
  unfold login
  refine keeps_lift_bind fun body read => keeps_lift_bind fun _ _ => ?_
  refine keeps_call_bind (fun _ _ => ⟨rfl, rfl⟩) fun _ => keeps_call_bind (fun _ => rfl) fun found => ?_
  split
  · exact keeps_call_bind trivial fun _ => trivial
  next user passes =>
  obtain ⟨rfl, checked⟩ := Option.filter_eq_some_iff.mp passes
  rw [Bool.and_eq_true, beq_iff_eq] at checked
  have passed (said : History) : Passed config platform req (said ++ [⟨.userNamed
      (jsTrim (textOr (body.field "username"))), .ok (some user)⟩]) user
      (textOr (body.field "password")) :=
    ⟨_, ⟨body, read, rfl, rfl⟩, told_last _ _ _, checked.2, checked.1⟩
  refine keeps_bind.mpr ((upgradePassword_keeps (passed _)).mono (fun _ _ => id) ?_)
  intro later _ le
  have proved : Proved config platform req later user := .password _ ((passed _).mono le)
  refine keeps_bind.mpr ((signInAs_keeps proved _).mono (fun _ _ => id) fun final session started => ?_)
  exact .started user session [] (proved.mono started.1) started.2 (List.append_nil _).symm
    (List.forall_mem_nil _)

theorem register_keeps (other : req.segments.headD "" ≠ "login") :
    Keeps (Grounded config platform req) (Answered config platform req) []
      (register config platform req) := by
  unfold register
  refine keeps_lift_bind fun _ _ => keeps_lift_bind fun body _ => ?_
  refine keeps_call_bind (fun ipHash same => absurd same (other_attempts _ ipHash).1) fun _ => ?_
  refine keeps_lift_bind fun password _ => keeps_call_bind trivial fun salt => ?_
  refine keeps_lift_bind fun record hashed => ?_
  have own (said : History) : OwnCredentials config platform req said
      ⟨some record.passwordHash, some record.passwordSalt, none⟩ :=
    .inl ⟨password, salt, record, hashed, rfl⟩
  refine keeps_bind.mpr ((createUser_keeps other _ _ _ (own _)).mono (fun _ _ => id) ?_)
  intro later user made
  refine keeps_bind.mpr ((startSession_keeps user).mono (fun _ _ => id) ?_)
  intro final session started
  exact .started user session [] (.created (made.2.1.mono started.1)) started.2
    (List.append_nil _).symm (List.forall_mem_nil _)

theorem logout_keeps : Keeps (Grounded config platform req) (Answered config platform req) []
    (logout config platform req) := by
  unfold logout
  refine keeps_call_bind rfl fun found => ?_
  cases found with
  | none => exact clears _ rfl _
  | some session =>
      refine keeps_lift_bind fun _ intended => ?_
      refine keeps_call_bind ⟨told_last [] (.session req) (some session), intended⟩ fun _ => ?_
      exact keeps_call_bind trivial fun _ => clears _ rfl _

theorem currentSession_keeps :
    Keeps (Grounded config platform req) (Answered config platform req) []
      (currentSession config req) := by
  have bare (content : AuthContent) (said : History) :
      Answered config platform req said ⟨content, []⟩ := .unstarted (List.forall_mem_nil _)
  unfold currentSession
  refine keeps_call_bind rfl fun found => ?_
  cases found with
  | none => exact bare _ _
  | some session =>
      refine keeps_call_bind trivial fun user => ?_
      split
      · exact clears _ rfl _
      · exact bare _ _

theorem githubStart_keeps :
    Keeps (Grounded config platform req) (Answered config platform req) []
      (githubStart config platform req) := by
  unfold githubStart
  refine keeps_lift_bind fun _ _ => ?_
  refine keeps_call_bind (fun ipHash same => absurd same (other_attempts _ ipHash).2) fun _ => ?_
  refine keeps_call_bind trivial fun id => keeps_call_bind trivial fun createdAt => ?_
  refine keeps_call_bind trivial fun now => ?_
  refine keeps_call_bind ⟨now, told_last _ _ _, rfl, rfl⟩ fun _ => ?_
  exact .unstarted fun _ mem => .inr ⟨_, _, List.mem_singleton.mp mem⟩

theorem githubCallback_keeps (other : req.segments.headD "" ≠ "login") :
    Keeps (Grounded config platform req) (Answered config platform req) []
      (githubCallback config platform req) := by
  unfold githubCallback
  refine keeps_lift_bind fun _ _ => keeps_lift_bind fun _ _ => keeps_lift_bind fun _ held => ?_
  have browser : stateOf req = browserStateOf platform req :=
    eq_of_timingSafeEqualHex (Bool.not_eq_false _ |>.mp fun differs => refuse_ok held (.inr differs))
  refine keeps_call_bind ⟨rfl, browser⟩ fun found => ?_
  cases found with
  | none => exact trivial
  | some row =>
      refine keeps_bind.mpr ((fetchGithubUser_keeps browser rfl).mono (fun _ _ => id) ?_)
      intro said profile linked
      refine keeps_bind.mpr ((githubAccount_keeps other linked.2).mono (fun _ _ => id) ?_)
      intro later user found
      refine keeps_lift_bind fun _ enabled => ?_
      have proved := found.2 (not_not.mp (refuse_ok enabled))
      refine keeps_bind.mpr ((signInAs_keeps proved _).mono (fun _ _ => id) ?_)
      intro final session started
      exact .started user session [oauthStateCookie config "" 0] (proved.mono started.1) started.2 rfl
        fun _ mem => List.mem_singleton.mp mem

/-- Every request keeps to it, whatever it is told. -/
theorem handleAuthRequest_keeps (req : AdminRequest) :
    Keeps (Grounded config platform req) (Answered config platform req) []
      (handleAuthRequest config platform req) := by
  unfold handleAuthRequest
  refine keeps_lift_bind fun _ _ => ?_
  dsimp only
  split
  · exact login_keeps
  split
  · next head => exact register_keeps fun login => absurd (head.1.symm.trans login) (by decide)
  split
  · exact logout_keeps
  split
  · exact currentSession_keeps
  split
  · exact githubStart_keeps
  split
  · next head => exact githubCallback_keeps fun login => absurd (head.1.symm.trans login) (by decide)
  · trivial

end Handlers

end Gateway.Admin.SignIn
