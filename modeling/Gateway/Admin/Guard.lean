import Gateway.Admin.Accounts
import Gateway.Admin.Session
import Gateway.Auth.Rechecked
import Gateway.Util.JsonBounds

/-!
The gate in front of the console.

A caller is named by a session or else by a key, and either names an account. The
role that counts is the one that the row of the account has now.
-/

namespace Gateway.Admin

open Gateway.Auth

inductive CallerVia where
  | session
  | key
deriving DecidableEq, Repr

structure AdminContext where
  userId : String
  username : String
  role : UserRole
  clientIp : String
  ipHash : String
  requestId : String
  via : CallerVia
deriving DecidableEq, Repr

structure AdminConfig extends AuthConfig, JsonConfig where
  adminAllowedCidrs : List String
  sessionSecret : String
  publicBaseUrl : String

/-- What the platform provides: `originOf` is the origin of a URL that parses. -/
structure ConsolePlatform extends Platform where
  auth : AuthPlatform
  originOf : String → Option String
  parseDate : String → Option Int
  toLowerCase : String → String

/-- A request, with what its caller is looked up in: the rows and the clocks of the
authentication, and the revoked sessions. -/
structure AdminRequest where
  method : String
  segments : List String
  relay : RelayRequest
  query : String → Option String
  /-- the text of the body, if it can be read within its limits -/
  body : Checked String
  world : AuthWorld
  verifiedAt : Int
  revocationsReadable : Bool
  revocations : Collection RevocationDoc
  requestId : String

section Caller

variable (config : AdminConfig) (platform : ConsolePlatform)

def roleRank : UserRole → Nat
  | .user => 0
  | .admin => 1
  | .root => 2

def assertRole (role minimum : UserRole) : Checked Unit :=
  if roleRank role < roleRank minimum then
    .error (.gateway (forbidden "this operation requires elevated privileges"))
  else .ok ()

def safeMethods : List String := ["GET", "HEAD", "OPTIONS"]

def CSRF_HEADER : String := "x-csrf-token"

/-- A request that names no origin has none to refuse. -/
def sameOrigin (headers : Headers) : Bool :=
  match (headers "origin").filter (· ≠ "") with
  | none => true
  | some origin =>
      match platform.originOf origin, platform.originOf config.publicBaseUrl with
      | some parsed, some own => parsed == origin && parsed == own
      | _, _ => false

def csrfTokenFor (sid : String) : String :=
  platform.hmacSha256Hex config.sessionSecret ("csrf:" ++ sid)

def assertCsrf (req : AdminRequest) (session : SessionPayload) : Checked Unit :=
  if safeMethods.contains req.method.toUpper then .ok ()
  else if sameOrigin config platform req.relay.headers = false then
    .error (.gateway (forbidden "request origin is not allowed"))
  else
    let presented := (req.relay.headers CSRF_HEADER).getD ""
    if presented = "" ∨
        timingSafeEqualHex presented (csrfTokenFor config platform session.sid) = false then
      .error (.gateway (forbidden "missing or invalid CSRF token"))
    else .ok ()

/-- A blank secret signs nothing. -/
def sessionSecret (ready : Checked Unit) : Checked String := do
  ready
  if config.sessionSecret = "" then
    throw (.gateway (.ofStatus .configurationError 503 "SESSION_SECRET is not configured" none))
  return config.sessionSecret

/-- The session of a request. Without a cookie no secret is asked for. -/
def requestSession (req : AdminRequest) : Checked (Option SessionPayload) :=
  let cookies := req.relay.headers "cookie"
  let raw := readCookie platform.toPlatform cookies SESSION_COOKIE
  if raw = "" ∨ 4096 < jsLength raw then .ok none
  else do
    let secret ← sessionSecret config req.world.ready
    (readSession platform.toPlatform secret cookies req.verifiedAt req.revocationsReadable
      req.revocations).mapError .gateway

def activeAccount (users : Collection AccountDoc) (id : String) : Checked AccountDoc :=
  match users.findOne id (fun user => user.status == .enabled) with
  | none => .error (.gateway (forbidden "this account is not active"))
  | some user => .ok user

def requireAdmin (minimum : UserRole) (req : AdminRequest) (users : Collection AccountDoc) :
    Checked AdminContext :=
  let clientIp := getClientIp config.trustedProxyHops req.relay.headers
  let fence := config.adminAllowedCidrs
  if fence ≠ [] ∧ matchesAnyCidr fence clientIp = false then
    .error (.gateway (forbidden "admin access is not permitted from this address"))
  else
    match requestSession config platform req with
    | .error e => .error e
    | .ok (some session) => do
        assertCsrf config platform req session
        let user ← activeAccount users session.sub
        assertRole user.role minimum
        return ⟨user.id, user.username, user.role, clientIp, platform.auth.hashIp clientIp,
          req.requestId, .session⟩
    | .ok none => do
        let context ← authenticate config.toAuthConfig platform.auth req.world req.relay
        let user ← activeAccount users context.identity.userId
        assertRole user.role minimum
        return ⟨context.identity.userId, context.identity.username, user.role, context.clientIp,
          context.ipHash, context.requestId, .key⟩

def bodyRefused : Thrown := .gateway (invalidRequest "request body must be a JSON object")

/-- An empty body is an empty object. -/
def readAdminBody (req : AdminRequest) : Checked Record :=
  if req.method = "GET" ∨ req.method = "HEAD" then .ok []
  else do
    let text ← req.body
    if jsTrim text = "" then return []
    match safeJsonParse config.toJsonConfig {} text with
    | .ok (.obj fields) => return fields
    | .ok _ => throw bodyRefused
    | .error _ => throw .fault

/-- A parameter that is not a number does not count. -/
def queryNumber (req : AdminRequest) (name : String) (fallback : ℚ) : ℚ :=
  match (req.query name).map stringToNumber with
  | some (.finite n) => n
  | _ => fallback

/-- `page` of the parameters, and its part of a list of rows. -/
def paged {α : Type} (req : AdminRequest) (rows : List α) : List α :=
  let limit := (min (max ⌊queryNumber req "limit" 50⌋ 1) 200).toNat
  let skip := (max ⌊queryNumber req "skip" 0⌋ 0).toNat
  (rows.drop skip).take limit

end Caller

section Sample

def sampleConsole : AdminConfig :=
  { sampleAuthConfig with
    maxRequestBodyBytes := 1024, maxJsonDepth := 8, maxJsonNodes := 64, adminAllowedCidrs := []
    sessionSecret := "s", publicBaseUrl := "" }

def sampleConsolePlatform : ConsolePlatform where
  toPlatform := Gateway.samplePlatform
  auth := Auth.samplePlatform
  originOf _ := none
  parseDate _ := none
  toLowerCase text := text

def sampleAccount (id : String) (unspaced : jsTrim id = id) (role : UserRole) : AccountDoc where
  id := id
  status := .enabled
  quota := 5
  quotaLedgerVersion := some 2
  usedQuota := 0
  requestCount := 0
  updatedAt := 0
  username := id
  displayName := id
  email := none
  credentials := ⟨none, none, none⟩
  role := role
  group := "default"
  legacyUsedQuota := none
  rpmLimit := none
  tpmLimit := none
  createdAt := 0
  lastLoginAt := none
  unspaced := unspaced

end Sample

end Gateway.Admin
