import Gateway.Auth.Authenticate

/-!
What a cached entry can do to an identity.

It names a token and a user, and no more than that: the digest, the status, the expiry and
everything that says what a caller may do are those of the rows that the names lead to.
-/

namespace Gateway.Auth

/-- What an identity says that its caller may do. -/
structure Authority where
  role : UserRole
  group : String
  unlimitedQuota : Bool
  tokenQuota : Int
  userQuota : Int
  allowedIps : List String
  allowedModels : List String
  rpmLimit : Int
  tpmLimit : Int
deriving DecidableEq, Repr

def Identity.authority (identity : Identity) : Authority where
  role := identity.role
  group := identity.group
  unlimitedQuota := identity.unlimitedQuota
  tokenQuota := identity.tokenQuota
  userQuota := identity.userQuota
  allowedIps := identity.allowedIps
  allowedModels := identity.allowedModels
  rpmLimit := identity.rpmLimit
  tpmLimit := identity.tpmLimit

section Rows

variable (config : AuthConfig)

/-- What the rows of a token and of its owner say. -/
def rowsAuthority (token : TokenRow) (user : UserRow) : Authority where
  role := user.role
  group := groupOf token user
  unlimitedQuota := token.unlimitedQuota
  tokenQuota := token.quota
  userQuota := user.quota
  allowedIps := token.allowedIps.getD []
  allowedModels := token.allowedModels.getD []
  rpmLimit := (token.rpmLimit.or user.rpmLimit).getD config.defaultRpm
  tpmLimit := (token.tpmLimit.or user.tpmLimit).getD config.defaultTpm

theorem authority_withRows (identity : Identity) (token : TokenRow) (user : UserRow) :
    (withRows config identity token user).authority = rowsAuthority config token user := rfl

/-- An entry that is loaded from the rows says what the recheck of the same rows says. -/
theorem authority_identityOf (token : TokenRow) (user : UserRow) :
    (identityOf config token user).authority = rowsAuthority config token user := rfl

end Rows

/-- The rows that an identity stands for, as they are in a database. -/
structure Vouched (db : AuthDb) (now : Int) (presented : String) (identity : Gateway.Identity)
    (token : TokenRow) (user : UserRow) : Prop where
  token_mem : db.tokens.find identity.tokenId = some token
  user_mem : db.users.find identity.userId = some user
  owner : token.userId = user.id
  token_enabled : token.status = .enabled
  user_enabled : user.status = .enabled
  unexpired : ∀ expiresAt, token.expiresAt = some expiresAt → now < expiresAt
  digest : token.keyDigest = presented

theorem Vouched.owner_found {db : AuthDb} {now : Int} {presented : String}
    {identity : Gateway.Identity} {token : TokenRow} {user : UserRow}
    (vouched : Vouched db now presented identity token user) :
    db.users.find token.userId = some user := by
  have key : user.id = identity.userId := Collection.key_of_find vouched.user_mem
  rw [vouched.owner, key]
  exact vouched.user_mem

section Recheck

variable {config : AuthConfig} {db : AuthDb} {now : Int} {entry identity : Identity}
  {presented clientIp : String}

theorem rowsPass_iff {token : TokenRow} {user : UserRow}
    (passes : rowsPass token user presented now = true) :
    token.status = .enabled ∧ user.status = .enabled ∧
      (∀ expiresAt, token.expiresAt = some expiresAt → now < expiresAt) ∧
        token.keyDigest = presented := by
  rw [rowsPass, Bool.and_eq_true, Bool.and_eq_true, Bool.and_eq_true, decide_eq_true_eq,
    decide_eq_true_eq, Bool.not_eq_true'] at passes
  obtain ⟨⟨⟨token_enabled, user_enabled⟩, unexpired⟩, equal⟩ := passes
  refine ⟨token_enabled, user_enabled, ?_, (eq_of_timingSafeEqualHex equal).symm⟩
  intro expiresAt set
  rw [expired, set, Option.any_some, decide_eq_false_iff_not] at unexpired
  exact Int.not_le.mp unexpired

theorem addressPasses_iff {allowedIps : List String}
    (passes : addressPasses allowedIps clientIp = true) :
    allowedIps ≠ [] → clientIp ≠ "" ∧ matchesAnyCidr allowedIps clientIp = true := by
  intro limited
  rw [addressPasses, Bool.or_eq_true, decide_eq_true_eq, Bool.and_eq_true,
    decide_eq_true_eq] at passes
  exact passes.resolve_left limited

/-- What a recheck that lets an entry pass has found. -/
theorem recheck_ok (ok : recheck config db now entry presented clientIp = .ok identity) :
    ∃ token user, Vouched db now presented identity.toIdentity token user ∧
      identity = withRows config entry token user ∧
      (token.allowedIps.getD [] ≠ [] →
        clientIp ≠ "" ∧ matchesAnyCidr (token.allowedIps.getD []) clientIp = true) := by
  rw [recheck] at ok
  split at ok
  · next token user token_found user_found =>
      split at ok
      · cases ok
      · next passes =>
          dsimp only at ok
          split at ok
          · cases ok
          · next address =>
              obtain ⟨found, owned⟩ := Collection.findOne_eq_some_iff.mp token_found
              have key : user.id = entry.userId := Collection.key_of_find user_found
              obtain ⟨token_enabled, user_enabled, unexpired, digest⟩ :=
                rowsPass_iff (Bool.not_eq_false _ |>.mp passes)
              cases ok
              exact ⟨token, user,
                ⟨found, user_found, (beq_iff_eq.mp owned).trans key.symm, token_enabled,
                  user_enabled, unexpired, digest⟩,
                rfl, addressPasses_iff (Bool.not_eq_false _ |>.mp address)⟩
  · cases ok

end Recheck

section Cached

variable {config : AuthConfig} {platform : AuthPlatform} {world : AuthWorld} {req : RelayRequest}
  {ctx : AuthContext}

/-- A request that is let in has gone through the recheck. -/
theorem authenticate_ok (ok : authenticate config platform world req = .ok ctx) :
    ∃ parsed entry, parseApiKey (extractCredential req).raw = some parsed ∧
      ctx.clientIp = getClientIp config.trustedProxyHops req.headers ∧
      recheck config world.current world.checkedAt entry
        (digestApiKey platform.sha256Hex config.keyPepper parsed.keyPrefix parsed.secret)
        ctx.clientIp = .ok ctx.identity := by
  rw [authenticate] at ok
  cases ready : world.ready with
  | error e =>
      rw [ready] at ok
      cases ok
  | ok _ =>
      rw [ready] at ok
      simp only [Except.bind] at ok
      split at ok
      · cases ok
      · split at ok
        · cases ok
        · next parsed read =>
            cases cached : world.cached (tokenCacheKey parsed.keyPrefix) with
            | error e =>
                rw [cached] at ok
                cases ok
            | ok entry =>
                rw [cached] at ok
                dsimp only at ok
                split at ok
                · cases ok
                · next digest entry _ _ =>
                    split at ok
                    · cases ok
                    · cases outcome : recheck config world.current world.checkedAt entry
                          (digestApiKey platform.sha256Hex config.keyPepper parsed.keyPrefix
                            parsed.secret)
                          (getClientIp config.trustedProxyHops req.headers) with
                      | error e =>
                          rw [outcome] at ok
                          cases ok
                      | ok identity =>
                          rw [outcome] at ok
                          cases ok
                          exact ⟨parsed, entry, read, rfl, outcome⟩

end Cached

section Stale

/-- A cached entry that says more than the rows do. -/
def staleEntry : Identity where
  tokenId := "t1"
  userId := "u1"
  tokenName := "old"
  keyPrefix := "AbCd1234"
  keyLast4 := "wxyz"
  username := "ann"
  role := .root
  group := "vip"
  unlimitedQuota := true
  tokenQuota := 0
  userQuota := 0
  allowedIps := []
  allowedModels := []
  rpmLimit := 1000
  tpmLimit := 1000

def sampleKey : String := "sk-AbCd1234" ++ String.ofList (List.replicate 40 'x')

def samplePlatform : AuthPlatform := ⟨fun text => text, fun _ => ""⟩

def sampleAuthConfig : AuthConfig := ⟨"pepper", 1, 60, 10, 20⟩

def sampleDigest : String := "pepper:AbCd1234:" ++ String.ofList (List.replicate 40 'x')

def sampleUser : UserRow where
  id := "u1"
  status := .enabled
  quota := 5
  quotaLedgerVersion := none
  usedQuota := 0
  requestCount := 0
  updatedAt := 0
  username := "ann"
  role := .user
  group := "default"
  rpmLimit := none
  tpmLimit := none

def sampleToken : TokenRow where
  id := "t1"
  userId := "u1"
  status := .enabled
  quota := 7
  quotaLedgerVersion := none
  usedQuota := 0
  unlimitedQuota := false
  expiresAt := none
  updatedAt := 0
  name := "new"
  keyPrefix := "AbCd1234"
  keyDigest := sampleDigest
  keyLast4 := "xxxx"
  allowedIps := none
  allowedModels := none
  group := none
  rpmLimit := some 3
  tpmLimit := none

def sampleAuthDb : AuthDb :=
  ⟨⟨[sampleUser], List.nodup_singleton _⟩, ⟨[sampleToken], List.nodup_singleton _⟩⟩

def staleWorld : AuthWorld :=
  ⟨.ok (), fun _ => .ok (some (.hit sampleDigest staleEntry (some none))), sampleAuthDb, 0,
    sampleAuthDb, 0, "r1", 0⟩

def sampleRequest : RelayRequest :=
  ⟨fun name => if name = "authorization" then some ("Bearer " ++ sampleKey) else none, none⟩

def sampleContext : AuthContext :=
  ⟨withRows sampleAuthConfig staleEntry sampleToken sampleUser, emptyDirectives, .authorization, "",
    "", "r1", 0⟩

theorem stale_request_passes :
    authenticate sampleAuthConfig samplePlatform staleWorld sampleRequest = .ok sampleContext := by
  decide +kernel

/-- The same call with an empty cache. -/
def emptyCacheWorld : AuthWorld := { staleWorld with cached := fun _ => .ok none }

def freshContext : AuthContext :=
  { sampleContext with
    identity := withRows sampleAuthConfig (identityOf sampleAuthConfig sampleToken sampleUser)
      sampleToken sampleUser }

theorem fresh_request_passes :
    authenticate sampleAuthConfig samplePlatform emptyCacheWorld sampleRequest =
      .ok freshContext := by
  decide +kernel

end Stale

end Gateway.Auth
