import Gateway.Admin.Cookies
import Gateway.Admin.Password
import Gateway.Admin.Router
import Gateway.Lib.Dialogue
import Gateway.RateLimit.FixedWindow

/-!
The sign-in surfaces of the console: passwords, sign-out and GitHub.

Many requests are under way at once, so each handler is a dialogue with the database, the
coordination store and the platform. What can happen between two of its questions is
anything that other requests do.
-/

namespace Gateway.Admin.SignIn

open Gateway.Auth Gateway.RateLimit Transaction Dialogue

section Rows

def MAX_LOGIN_ATTEMPTS : Int := 10

def ATTEMPT_WINDOW_SEC : Int := 900

def STATE_TTL_MS : Int := 10 * 60 * 1000

def OAUTH_STATE_COOKIE : String := "fb_oauth_state"

structure OAuthStateDoc where
  id : String
  redirect : String
  createdAt : Int
  expiresAt : Int
  consumedAt : Option Int
deriving DecidableEq

instance : Document OAuthStateDoc String := ⟨OAuthStateDoc.id⟩

structure SignInConfig extends AdminConfig where
  production : Bool
  registrationEnabled : Bool
  githubClientId : String
  githubClientSecret : String

structure SignInPlatform extends ConsolePlatform where
  pbkdf2 : Derivation

def attemptKey (ipHash : String) : String := "login:att:" ++ ipHash

def secureCookies (config : SignInConfig) : Bool :=
  config.production || startsWith config.publicBaseUrl "https://"

structure PublicUser where
  id : String
  username : String
  displayName : String
  email : Option String
  role : UserRole
  group : String
  quota : Int
  usedQuota : Int
  requestCount : Nat

def publicUser (user : AccountDoc) : PublicUser := { user with }

/-- Never off the origin: parsers of URLs drop control characters and read a backslash as a
slash. -/
def safeRedirect (value : Option String) : String :=
  match value with
  | none => "/console"
  | some value =>
      if startsWith value "/" = false ∨ startsWith value "//" = true then "/console"
      else if value.toList.any fun c => c == '\\' || c.toNat < 0x20 || c.toNat == 0x7f then
        "/console"
      else String.ofList (jsTake 500 value.toList)

end Rows

section Questions

/-- What a handler asks for. -/
inductive Ask where
  | attempt (key : String) (limit windowSec : Int) (message : String)
  | userNamed (username : String)
  | userById (id : String)
  | userOfGithub (githubId : String)
  /-- a hash in place of the one that was read -/
  | upgrade (id : String) (passwordHash passwordSalt : Option String) (record : PasswordRecord)
  | signedIn (id : String)
  | audit (entry : AuditEntry)
  | draw (count : Nat)
  | clock
  | insertUser (user : AccountDoc)
  | session (req : AdminRequest)
  | revoke (session : SessionPayload)
  | insertState (state : OAuthStateDoc)
  | claim (stateId : String)
  /-- the token endpoint of GitHub -/
  | exchange (code : String)
  /-- the profile of the owner of a token -/
  | profile (token : String)

abbrev Ask.Answer : Ask → Type
  | .userNamed _ | .userById _ | .userOfGithub _ => Option AccountDoc
  | .draw count => Vector UInt8 count
  | .clock => Int
  | .session _ => Option SessionPayload
  | .claim _ => Option OAuthStateDoc
  | .exchange _ => String
  | .profile _ => Bool × String
  | _ => Unit

abbrev Handler := Dialogue Thrown Ask Ask.Answer

abbrev ask (question : Ask) : Handler question.Answer := call question

end Questions

section Handlers

variable (config : SignInConfig) (platform : SignInPlatform)

inductive Location where
  /-- the page of GitHub that asks for consent -/
  | authorize (stateId : String)
  | page (path : String)

inductive AuthContent where
  | account (user : PublicUser) (csrf : String) (status : Nat)
  | signedOut
  | session (user : Option PublicUser)
  | redirect (location : Location)

structure AuthReply where
  content : AuthContent
  cookies : List String

def oauthStateCookie (stateId : String) (ttlSec : Int) : String :=
  cookie (secureCookies config) OAUTH_STATE_COOKIE stateId ttlSec true

def readBody (req : AdminRequest) : Checked Record :=
  if req.method = "GET" ∨ req.method = "HEAD" then .ok []
  else do
    let text ← req.body
    if jsTrim text = "" then return []
    match safeJsonParse config.toJsonConfig {} text with
    | .ok value => return asRecord (some value)
    | .error _ => throw .fault

/-- A check that ends the request where it throws. -/
def refuse (refused : Prop) [Decidable refused] (error : Thrown) : Checked Unit :=
  if refused then .error error else .ok ()

def ipHashOf (req : AdminRequest) : String :=
  platform.auth.hashIp (getClientIp config.trustedProxyHops req.relay.headers)

/-- A session id is drawn, and the expiry is counted from the clock. -/
def startSession (req : AdminRequest) (user : AccountDoc) : Handler IssuedSession := do
  let sid : Vector UInt8 16 ← ask (.draw 16)
  let now : Int ← ask .clock
  createSession config.toAdminConfig platform.toConsolePlatform req.world.ready sid.toList
    (now / 1000).toNat user

/-- The tail that the two ways to sign in share. -/
def signInAs (req : AdminRequest) (user : AccountDoc) (action : String) :
    Handler IssuedSession := do
  let session ← startSession config platform req user
  ask (.signedIn user.id)
  ask (.audit ⟨user.id, user.role, action, "user", user.id, [], ipHashOf config platform req⟩)
  return session

/-- What is done about the account that was found. -/
def passes (found : Option AccountDoc) (password : String) : Option AccountDoc :=
  found.filter fun user =>
    verifyPassword platform.pbkdf2 password user.credentials.passwordHash
      user.credentials.passwordSalt && user.status == .enabled

def upgradePassword (user : AccountDoc) (password : String) : Handler Unit := do
  if needsPasswordUpgrade user.credentials.passwordHash then
    let salt ← ask (.draw SALT_BYTES)
    let upgraded ← hashPassword platform.pbkdf2 password salt
    ask (.upgrade user.id user.credentials.passwordHash user.credentials.passwordSalt upgraded)

def login (req : AdminRequest) : Handler AuthReply := do
  let body ← readBody config req
  let username := jsTrim (textOr (body.field "username"))
  let password := textOr (body.field "password")
  let ipHash := ipHashOf config platform req
  refuse (username = "" ∨ password = "")
    (.gateway (invalidRequest "username and password are required"))
  ask (.attempt (attemptKey ipHash) MAX_LOGIN_ATTEMPTS ATTEMPT_WINDOW_SEC
    "too many sign-in attempts, try again later")
  let found : Option AccountDoc ← ask (.userNamed username)
  match passes platform found password with
  | none =>
      ask (.audit ⟨(found.map (·.id)).getD "unknown", (found.map (·.role)).getD .user,
        "auth.login.failed", "user", username, [], ipHash⟩)
      throw (.gateway (forbidden "those credentials are not valid"))
  | some user =>
      upgradePassword platform user password
      let session ← signInAs config platform req user "auth.login"
      return ⟨.account (publicUser user) session.csrf 200,
        sessionCookies (secureCookies config) session.token session.csrf⟩

/-- The account of a request, read twice: before the transaction and in it. -/
def createUser (input : Record) (credentials : Credentials) : Handler AccountDoc := do
  let username ← requireText (input.field "username") "username" 64
  let found : Option AccountDoc ← ask (.userNamed username)
  refuse found.isSome (.gateway (invalidParam "that username is taken" "username"))
  let now : Int ← ask .clock
  let id : Vector UInt8 12 ← ask (.draw 12)
  let user ← newAccount id.toList now username input credentials
  ask (.insertUser user)
  return user

/-- The fields that a public request may give. -/
def publicInput (username displayName email : Option Json) : Record :=
  [("username", username), ("displayName", displayName), ("email", email)].filterMap
    (fun entry => entry.2.map (entry.1, ·)) ++ [("role", .str "user")]

def register (req : AdminRequest) : Handler AuthReply := do
  refuse (config.registrationEnabled = false)
    (.gateway (forbidden "self-registration is disabled on this deployment"))
  let body ← readBody config req
  ask (.attempt ("register:att:" ++ ipHashOf config platform req) 5 ATTEMPT_WINDOW_SEC
    "too many registration attempts, try again later")
  let password ← assertPasswordAcceptable (body.field "password")
  let salt ← ask (.draw SALT_BYTES)
  let credentials ← hashPassword platform.pbkdf2 password salt
  let user ← createUser (publicInput (body.field "username") (body.field "displayName")
    (body.field "email")) ⟨some credentials.passwordHash, some credentials.passwordSalt, none⟩
  let session ← startSession config platform req user
  return ⟨.account (publicUser user) session.csrf 201,
    sessionCookies (secureCookies config) session.token session.csrf⟩

/-- The role in a session, which is one of the three since the session was signed here. -/
def sessionRole (session : SessionPayload) : UserRole :=
  match session.fields.field "role" with
  | some (.str "admin") => .admin
  | some (.str "root") => .root
  | _ => .user

/-- The cookies are cleared in any case. -/
def logout (req : AdminRequest) : Handler AuthReply := do
  match ← ask (.session req) with
  | none => return ⟨.signedOut, clearedSessionCookies (secureCookies config)⟩
  | some session =>
      assertCsrf config.toAdminConfig platform.toConsolePlatform req session
      ask (.revoke session)
      ask (.audit ⟨session.sub, sessionRole session, "auth.logout", "user", session.sub, [],
        ipHashOf config platform req⟩)
      return ⟨.signedOut, clearedSessionCookies (secureCookies config)⟩

def currentSession (req : AdminRequest) : Handler AuthReply := do
  match ← ask (.session req) with
  | none => return ⟨.session none, []⟩
  | some session =>
      match (← ask (.userById session.sub)).filter fun user => user.status == .enabled with
      | none => return ⟨.session none, clearedSessionCookies (secureCookies config)⟩
      | some user => return ⟨.session (some (publicUser user)), []⟩

def unavailable (message : String) : Thrown :=
  .gateway (.ofStatus .configurationError 503 message none)

def githubConfigured : Checked Unit :=
  if config.githubClientId = "" ∨ config.githubClientSecret = "" then
    .error (unavailable "GitHub sign-in is not configured")
  else if config.publicBaseUrl = "" then
    .error (unavailable "PUBLIC_BASE_URL must be set for OAuth callbacks")
  else .ok ()

def githubStart (req : AdminRequest) : Handler AuthReply := do
  githubConfigured config
  ask (.attempt ("oauth:att:" ++ ipHashOf config platform req) 20 ATTEMPT_WINDOW_SEC
    "too many sign-in attempts, try again later")
  let id : Vector UInt8 16 ← ask (.draw 16)
  let createdAt ← ask .clock
  let now : Int ← ask .clock
  let state : OAuthStateDoc :=
    ⟨bytesToHex id.toList, safeRedirect (req.query "redirect"), createdAt, now + STATE_TTL_MS, none⟩
  ask (.insertState state)
  return ⟨.redirect (.authorize state.id), [oauthStateCookie config state.id (STATE_TTL_MS / 1000)]⟩

structure GithubUser where
  id : String
  login : String
  email : String
  name : String

/-- The text of an answer of GitHub, as an object. -/
def githubRecord (text : String) : Checked Record :=
  match safeJsonParse config.toJsonConfig {} text with
  | .ok value => .ok (asRecord (some value))
  | .error _ => .error .fault

def accessToken (text : String) : Checked String := do
  let token := asString ((← githubRecord config text).field "access_token")
  refuse (token = "") (.gateway (forbidden "GitHub did not return an access token"))
  return token

def githubUser (ok : Bool) (text : String) : Checked GithubUser := do
  refuse (ok = false) (.gateway (forbidden "GitHub rejected the profile request"))
  let profile ← githubRecord config text
  let id := textOr (profile.field "id")
  refuse (id = "") (.gateway (forbidden "GitHub profile had no id"))
  return ⟨id, (fieldText (profile.field "login")).getD ("gh-" ++ id),
    asString (profile.field "email"), asString (profile.field "name")⟩

def fetchGithubUser (code : String) : Handler GithubUser := do
  let token ← accessToken config (← ask (.exchange code))
  let (ok, text) ← ask (.profile token)
  githubUser config ok text

/-- The name that a new account gets: what may stand in a name, of the login. -/
def githubUsername (profile : GithubUser) : String :=
  let plain := (platform.toLowerCase profile.login).toList.filter fun c =>
    ('a' ≤ c && c ≤ 'z') || c.isDigit || c == '_' || c == '-'
  if plain = [] then "gh-" ++ profile.id else String.ofList (plain.take 48)

/-- A name that is taken gets a mark. -/
def freeUsername (plain : String) : Handler String := do
  let taken : Option AccountDoc ← ask (.userNamed plain)
  if taken.isSome then
    let mark : Vector UInt8 3 ← ask (.draw 3)
    return plain ++ "-" ++ bytesToHex mark.toList
  else return plain

def registerGithubUser (req : AdminRequest) (profile : GithubUser) : Handler AccountDoc := do
  refuse (config.registrationEnabled = false)
    (.gateway (forbidden "this GitHub account is not linked to a user"))
  let username ← freeUsername (githubUsername platform profile)
  let user ← createUser (publicInput (some (.str username))
    (some (.str (if profile.name = "" then username else profile.name)))
    (some (.str profile.email))) ⟨none, none, some profile.id⟩
  ask (.audit ⟨user.id, .user, "auth.github.register", "user", user.id, [],
    ipHashOf config platform req⟩)
  return user

/-- Linked by the immutable id, never by login or address. -/
def githubAccount (req : AdminRequest) (profile : GithubUser) : Handler AccountDoc := do
  match ← ask (.userOfGithub profile.id) with
  | some user => return user
  | none => registerGithubUser config platform req profile

def stateRefused : Thrown := .gateway (forbidden "that sign-in attempt is no longer valid")

/-- The state is claimed before the code is exchanged, by the browser that was given it. -/
def githubCallback (req : AdminRequest) : Handler AuthReply := do
  githubConfigured config
  let code := (req.query "code").getD ""
  let stateId := (req.query "state").getD ""
  refuse (code = "" ∨ stateId = "") (.gateway (invalidRequest "missing code or state"))
  let browserState :=
    readCookie platform.toPlatform (req.relay.headers "cookie") OAUTH_STATE_COOKIE
  refuse (isSessionId stateId = false ∨ timingSafeEqualHex stateId browserState = false)
    stateRefused
  match ← ask (.claim stateId) with
  | none => throw stateRefused
  | some state =>
      let profile ← fetchGithubUser config code
      let user ← githubAccount config platform req profile
      refuse (user.status ≠ .enabled) (.gateway (forbidden "this account is not active"))
      let session ← signInAs config platform req user "auth.github.login"
      return ⟨.redirect (.page (safeRedirect (some state.redirect))),
        sessionCookies (secureCookies config) session.token session.csrf ++
          [oauthStateCookie config "" 0]⟩

/-- The dispatcher. What a request throws is answered as an error. -/
def handleAuthRequest (req : AdminRequest) : Handler AuthReply := do
  req.world.ready
  let method := req.method.toUpper
  let head := req.segments.headD ""
  let second := req.segments.tail.headD ""
  if head = "login" ∧ method = "POST" then login config platform req
  else if head = "register" ∧ method = "POST" then register config platform req
  else if head = "logout" ∧ method = "POST" then logout config platform req
  else if head = "session" ∧ method = "GET" then currentSession config req
  else if head = "github" ∧ second = "" ∧ method = "GET" then githubStart config platform req
  else if head = "github" ∧ second = "callback" ∧ method = "GET" then
    githubCallback config platform req
  else
    throw (.gateway (invalidRequest
      ("no auth route for " ++ method ++ " /" ++ "/".intercalate req.segments)))

end Handlers

section Answers

variable (config : SignInConfig) (platform : SignInPlatform)

structure SignInDb where
  users : Collection AccountDoc
  states : Collection OAuthStateDoc
  revocations : Collection RevocationDoc
  trail : List AuditEntry
  counters : Redis.Store

/-- What a question meets besides the rows. -/
structure World where
  now : Int
  /-- how the operation of a database ends -/
  commit : Commit
  degraded : Bool
  random : (count : Nat) → Vector UInt8 count
  /-- the clock when a session was verified, before its row is looked for -/
  verifiedAt : Int
  exchange : Checked String
  profile : Checked (Bool × String)

def rateLimited (message : String) : Thrown :=
  .gateway (.ofStatus .rateLimitExceeded 429 message none)

/-- A script that fails may have been run. -/
def enforceAttemptLimit (w : World) (key : String) (limit windowSec : Int) (message : String)
    (counters : Redis.Store) : Checked Unit × Redis.Store :=
  if w.degraded ∨ w.commit = .aborted then (.error (.gateway limiterUnavailable), counters)
  else
    let (result, counters) := Redis.fixedWindow (Redis.command w.now) key limit windowSec 1 counters
    if w.commit = .unacknowledged then (.error (.gateway limiterUnavailable), counters)
    else if result.head? = some 1 then (.ok (), counters)
    else (.error (rateLimited message), counters)

def upgradeUpdate (passwordHash passwordSalt : Option String) (record : PasswordRecord) :
    Update AccountDoc where
  apply user :=
    if user.credentials.passwordHash = passwordHash ∧ user.credentials.passwordSalt = passwordSalt
    then
      { user with
        credentials := ⟨some record.passwordHash, some record.passwordSalt,
          user.credentials.githubId⟩ }
    else user
  key_apply user := by split <;> rfl

def signedInUpdate (now : Int) : Update AccountDoc where
  apply user := { user with lastLoginAt := some now }
  key_apply _ := rfl

def consumedUpdate (now : Int) : Update OAuthStateDoc where
  apply state := { state with consumedAt := some now }
  key_apply _ := rfl

def claimable (now : Int) (state : OAuthStateDoc) : Bool :=
  state.consumedAt.isNone && decide (now < state.expiresAt)

def claimState (now : Int) (stateId : String) (states : Collection OAuthStateDoc) :
    Checked (Option OAuthStateDoc) × Collection OAuthStateDoc :=
  match states.findOneAndUpdate stateId (claimable now) (consumedUpdate now) with
  | none => (.ok none, states)
  | some (state, states) => (.ok (some state), states)

def insertState (state : OAuthStateDoc) (states : Collection OAuthStateDoc) :
    Checked Unit × Collection OAuthStateDoc :=
  match states.insertOne state with
  | none => (.error .fault, states)
  | some states => (.ok (), states)

/-- A read has nothing to commit. -/
def reads {α : Type} (w : World) (found : α) : Checked α :=
  if w.commit = .committed then .ok found else .error .fault

def answerAsk (db : SignInDb) (w : World) : (ask : Ask) → Checked ask.Answer × SignInDb
  | .attempt key limit windowSec message =>
      let (result, counters) := enforceAttemptLimit w key limit windowSec message db.counters
      (result, { db with counters := counters })
  | .userNamed username => (reads w (findUserByUsername db.users username), db)
  | .userById id => (reads w (db.users.find id), db)
  | .userOfGithub githubId =>
      (reads w (db.users.findWhere fun user => user.credentials.githubId == some githubId), db)
  | .upgrade id passwordHash passwordSalt record =>
      let (result, users) := atomically .fault w.commit (fun users => (.ok (),
        users.modify id (upgradeUpdate passwordHash passwordSalt record))) db.users
      (result, { db with users := users })
  | .signedIn id =>
      let (result, users) := atomically .fault w.commit
        (fun users => (.ok (), users.modify id (signedInUpdate w.now))) db.users
      (result, { db with users := users })
  | .audit entry =>
      (.ok (), if w.commit = .aborted then db else { db with trail := db.trail ++ [entry] })
  | .draw count => (.ok (w.random count), db)
  | .clock => (.ok w.now, db)
  | .insertUser user =>
      let (result, users) := atomically .fault w.commit (insertAccount user) db.users
      (result, { db with users := users })
  | .session req =>
      (requestSession config.toAdminConfig platform.toConsolePlatform
        { req with
          verifiedAt := w.verifiedAt
          revocationsReadable := w.commit == .committed
          revocations := db.revocations }, db)
  | .revoke session =>
      let (result, rows) := atomically .fault w.commit (revokeSession session) db.revocations
      (result, { db with revocations := rows })
  | .insertState state =>
      let (result, states) := atomically .fault w.commit (insertState state) db.states
      (result, { db with states := states })
  | .claim stateId =>
      let (result, states) := atomically .fault w.commit (claimState w.now stateId) db.states
      (result, { db with states := states })
  | .exchange _ => (w.exchange, db)
  | .profile _ => (w.profile, db)

end Answers

section Sample

def sampleSignIn : SignInConfig :=
  { sampleConsole with
    publicBaseUrl := "https://g", production := true, registrationEnabled := true
    githubClientId := "i", githubClientSecret := "s" }

def sampleSignInPlatform : SignInPlatform :=
  { sampleConsolePlatform with
    toPlatform := standardPlatform
    pbkdf2 := fun password salt _ => Vector.ofFn fun i => (password ++ salt).getD i 0 }

def sampleSignInDb : SignInDb where
  users := .empty
  states := .empty
  revocations := .empty
  trail := []
  counters := Redis.Store.empty

def sampleWorld : World where
  now := 1000
  commit := .committed
  degraded := false
  random count := Vector.replicate count 7
  verifiedAt := 1000
  exchange := .ok "\x7b\"access_token\":\"t\"\x7d"
  profile := .ok (true, "\x7b\"id\":7,\"login\":\"ann\"\x7d")

def sampleState : String := bytesToHex (List.replicate 16 7)

def sampleVisit (segments : List String) (query headers : String → Option String) : AdminRequest where
  method := "GET"
  segments := segments
  relay := ⟨headers, none⟩
  query := query
  body := .ok ""
  world := ⟨.ok (), fun _ => .ok none, ⟨.empty, .empty⟩, 0, ⟨.empty, .empty⟩, 0, "r", 0⟩
  verifiedAt := 1000
  revocationsReadable := true
  revocations := .empty
  requestId := "r"

def sampleStart : AdminRequest := sampleVisit ["github"] (fun _ => none) fun _ => none

def sampleCallback : AdminRequest :=
  sampleVisit ["github", "callback"]
    (fun name => if name = "code" then some "c" else if name = "state" then some sampleState
      else none)
    fun name => if name = "cookie" then some (OAUTH_STATE_COOKIE ++ "=" ++ sampleState) else none

end Sample

end Gateway.Admin.SignIn
