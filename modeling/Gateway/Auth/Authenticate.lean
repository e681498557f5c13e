import Gateway.Auth.Cidr
import Gateway.Auth.Credential
import Gateway.Db.Types
import Gateway.Http.Errors
import Gateway.Quota.Ledger
import Gateway.Redis.Keys
import Gateway.Util.Crypto

/-!
The authentication of a relay request.

A key is looked up by its public part, in the cache or in the database. What is found
that way names a token; the rows of that token and of its owner are read again, and the
identity is made of these.
-/

namespace Gateway.Auth

inductive UserRole where
  | root
  | admin
  | user
deriving DecidableEq, Repr

/-- The row of a user, with what authentication reads of it. -/
structure UserRow extends UserDoc where
  username : String
  role : UserRole
  group : String
  rpmLimit : Option Int
  tpmLimit : Option Int
deriving DecidableEq, Repr

/-- The row of a token, with what authentication reads of it. -/
structure TokenRow extends TokenDoc where
  name : String
  keyPrefix : String
  keyDigest : String
  keyLast4 : String
  allowedIps : Option (List String)
  allowedModels : Option (List String)
  group : Option String
  rpmLimit : Option Int
  tpmLimit : Option Int
deriving DecidableEq, Repr

instance : Document UserRow String := ⟨fun row => row.id⟩

instance : Document TokenRow String := ⟨fun row => row.id⟩

structure AuthDb where
  users : Collection UserRow
  tokens : Collection TokenRow

structure AuthConfig where
  keyPepper : String
  trustedProxyHops : Nat
  tokenCacheTtlSec : Int
  defaultRpm : Int
  defaultTpm : Int

/-- The resolved caller. -/
structure Identity extends Gateway.Identity where
  tokenName : String
  keyPrefix : String
  keyLast4 : String
  username : String
  role : UserRole
  group : String
  unlimitedQuota : Bool
  tokenQuota : Int
  userQuota : Int
  allowedIps : List String
  allowedModels : List String
  rpmLimit : Int
  tpmLimit : Int
deriving DecidableEq, Repr

/-- An entry of the cache. A hit may lack its expiry, or have none. -/
inductive CacheEntry where
  | miss
  | hit (digest : String) (identity : Identity) (expiresAt : Option (Option Int))
deriving DecidableEq, Repr

structure AuthContext where
  identity : Identity
  directives : KeyDirectives
  source : CredentialSource
  clientIp : String
  ipHash : String
  requestId : String
  startedAt : Int
deriving DecidableEq, Repr

section Loading

variable (config : AuthConfig)

def NEGATIVE_TTL_SEC : Int := 5

def tokenCacheKey (keyPrefix : String) : String := "tok:" ++ seg keyPrefix

/-- Whether a cached entry is answered as it is. -/
def CacheEntry.usable (now : Int) : CacheEntry → Bool
  | .miss => true
  | .hit _ _ none => false
  | .hit _ _ (some none) => true
  | .hit _ _ (some (some expiresAt)) => decide (now < expiresAt)

def expired (token : TokenDoc) (now : Int) : Bool :=
  token.expiresAt.any fun expiresAt => decide (expiresAt ≤ now)

/-- `token.group || user.group` -/
def groupOf (token : TokenRow) (user : UserRow) : String :=
  (token.group.filter (· ≠ "")).getD user.group

/-- The fields of an identity that are taken from the rows. -/
def withRows (identity : Identity) (token : TokenRow) (user : UserRow) : Identity :=
  { identity with
    tokenName := token.name
    username := user.username
    role := user.role
    group := groupOf token user
    unlimitedQuota := token.unlimitedQuota
    tokenQuota := token.quota
    userQuota := user.quota
    allowedIps := token.allowedIps.getD []
    allowedModels := token.allowedModels.getD []
    rpmLimit := (token.rpmLimit.or user.rpmLimit).getD config.defaultRpm
    tpmLimit := (token.tpmLimit.or user.tpmLimit).getD config.defaultTpm }

def identityOf (token : TokenRow) (user : UserRow) : Identity where
  tokenId := token.id
  tokenName := token.name
  keyPrefix := token.keyPrefix
  keyLast4 := token.keyLast4
  userId := user.id
  username := user.username
  role := user.role
  group := groupOf token user
  unlimitedQuota := token.unlimitedQuota
  tokenQuota := token.quota
  userQuota := user.quota
  allowedIps := token.allowedIps.getD []
  allowedModels := token.allowedModels.getD []
  rpmLimit := (token.rpmLimit.or user.rpmLimit).getD config.defaultRpm
  tpmLimit := (token.tpmLimit.or user.tpmLimit).getD config.defaultTpm

/-- How long a hit is cached. -/
def hitTtl (expiresAt : Option Int) (now : Int) : Int :=
  match expiresAt with
  | none => config.tokenCacheTtlSec
  | some expiresAt => max 1 (min config.tokenCacheTtlSec (-(-(expiresAt - now) / 1000)))

/-- The entry of a key, and what is written to the cache with its time to live. -/
def loadIdentity (cached : Option CacheEntry) (db : AuthDb) (now : Int) (keyPrefix : String) :
    CacheEntry × Option (CacheEntry × Int) :=
  match cached.filter (·.usable now) with
  | some entry => (entry, none)
  | none =>
      let miss := (CacheEntry.miss, some (CacheEntry.miss, NEGATIVE_TTL_SEC))
      match db.tokens.findWhere fun token => token.keyPrefix == keyPrefix with
      | none => miss
      | some token =>
          if token.status ≠ .enabled then miss
          else if expired token.toTokenDoc now then miss
          else
            match db.users.find token.userId with
            | none => miss
            | some user =>
                if user.status ≠ .enabled then miss
                else
                  let entry := CacheEntry.hit token.keyDigest (identityOf config token user)
                    (some token.expiresAt)
                  (entry, some (entry, hitTtl config token.expiresAt now))

end Loading

section Deciding

def SESSION_TOKEN_PREFIX : String := "sess-"

def ipNotAllowed (message : String) : GatewayError := .ofStatus .ipNotAllowed 403 message none

structure AuthPlatform where
  sha256Hex : String → String
  hashIp : String → String

/-- What a call meets: the answer of the cache, the database when a key is looked up and
when its rows are read again, and the clock at both times. -/
structure AuthWorld where
  ready : Except Thrown Unit
  cached : String → Except Thrown (Option CacheEntry)
  loaded : AuthDb
  loadedAt : Int
  current : AuthDb
  checkedAt : Int
  requestId : String
  startedAt : Int

variable (config : AuthConfig) (platform : AuthPlatform)

/-- Whether the rows, as they are now, let the digest of a key pass. -/
def rowsPass (token : TokenRow) (user : UserRow) (presented : String) (now : Int) : Bool :=
  token.status = .enabled && user.status = .enabled && !expired token.toTokenDoc now &&
    timingSafeEqualHex presented token.keyDigest

def addressPasses (allowedIps : List String) (clientIp : String) : Bool :=
  allowedIps = [] || (clientIp ≠ "" && matchesAnyCidr allowedIps clientIp)

/-- The rows of the entry are read again, and decide. -/
def recheck (db : AuthDb) (now : Int) (entry : Identity) (presented clientIp : String) :
    Except Thrown Identity :=
  match db.tokens.findOne entry.tokenId (fun token => token.userId == entry.userId),
    db.users.find entry.userId with
  | some token, some user =>
      if rowsPass token user presented now = false then
        .error (.gateway (unauthorized "invalid api key"))
      else
        let identity := withRows config entry token user
        if addressPasses identity.allowedIps clientIp = false then
          .error (.gateway (ipNotAllowed "this api key is not permitted from your address"))
        else .ok identity
  | _, _ => .error (.gateway (unauthorized "invalid api key"))

def authenticate (world : AuthWorld) (req : RelayRequest) : Except Thrown AuthContext :=
  world.ready.bind fun _ =>
    let clientIp := getClientIp config.trustedProxyHops req.headers
    let credential := extractCredential req
    if startsWith credential.raw SESSION_TOKEN_PREFIX then
      .error (.gateway (unauthorized "session tokens cannot be used as api keys"))
    else
      match parseApiKey credential.raw with
      | none =>
          .error (.gateway (unauthorized
            (if credential.source = .none then "no api key was provided"
              else "the api key is malformed")))
      | some parsed =>
          (world.cached (tokenCacheKey parsed.keyPrefix)).bind fun cached =>
            let presented :=
              digestApiKey platform.sha256Hex config.keyPepper parsed.keyPrefix parsed.secret
            match (loadIdentity config cached world.loaded world.loadedAt parsed.keyPrefix).1 with
            | .miss => .error (.gateway (unauthorized "invalid api key"))
            | .hit digest entry _ =>
                if timingSafeEqualHex presented digest = false then
                  .error (.gateway (unauthorized "invalid api key"))
                else
                  (recheck config world.current world.checkedAt entry presented clientIp).map
                    fun identity =>
                      ⟨identity, parsed.directives, credential.source, clientIp,
                        platform.hashIp clientIp, world.requestId, world.startedAt⟩

end Deciding

end Gateway.Auth
