import Gateway.Admin.Catalog
import Gateway.Admin.Channels
import Gateway.Auth.Authenticate

/-!
The accounts of the gateway and their keys, as the console edits them.

An edit is checked field by field, and the first failure ends it before anything is
written. The secret of a key is drawn with it and answered once.
-/

namespace Gateway.Admin

open Gateway.Auth Transaction

section Rows

/-- What proves whose an account is. It never leaves the server. -/
structure Credentials where
  passwordHash : Option String
  passwordSalt : Option String
  githubId : Option String
deriving DecidableEq, Repr

def noCredentials : Credentials := ⟨none, none, none⟩

/-- A user as it is stored. Its id is made of hex digits, so there is no space around it. -/
structure AccountDoc extends UserDoc where
  username : String
  displayName : String
  email : Option String
  credentials : Credentials
  role : UserRole
  group : String
  legacyUsedQuota : Option Int
  rpmLimit : Option ℚ
  tpmLimit : Option ℚ
  createdAt : Int
  lastLoginAt : Option Int
  unspaced : jsTrim id = id
deriving DecidableEq

/-- A token as it is stored. -/
structure KeyDoc extends TokenDoc where
  name : String
  keyPrefix : String
  keyDigest : String
  keyLast4 : String
  allowedIps : List String
  allowedModels : List String
  group : Option String
  rpmLimit : Option ℚ
  tpmLimit : Option ℚ
  createdAt : Int
deriving DecidableEq

instance : Document AccountDoc String := ⟨fun account => account.id⟩

instance : Document KeyDoc String := ⟨fun token => token.id⟩

structure UserView where
  id : String
  username : String
  displayName : String
  email : String
  role : UserRole
  status : EntityStatus
  group : String
  quota : Int
  usedQuota : Int
  requestCount : Nat
  rpmLimit : Option ℚ
  tpmLimit : Option ℚ
  createdAt : Int
  updatedAt : Int
  lastLoginAt : Option Int

def userView (user : AccountDoc) : UserView :=
  { user with email := user.email.getD "" }

/-- A token without its digest. -/
structure TokenView extends TokenDoc where
  name : String
  keyPrefix : String
  keyLast4 : String
  allowedIps : List String
  allowedModels : List String
  group : Option String
  rpmLimit : Option ℚ
  tpmLimit : Option ℚ
  createdAt : Int
  masked : String

def maskKey (keyPrefix last4 : String) : String :=
  KEY_SCHEME ++ "-" ++ keyPrefix ++ "..." ++ last4

def tokenView (token : KeyDoc) : TokenView :=
  { token with masked := maskKey token.keyPrefix token.keyLast4 }

end Rows

section Fields

def asRole (value : Option Json) (fallback : UserRole) : Checked UserRole :=
  match value with
  | none | some .null => .ok fallback
  | some (.str "user") => .ok .user
  | some (.str "admin") => .ok .admin
  | some (.str "root") => .ok .root
  | some _ => rejected "role must be user, admin, or root" "role"

def quotaField (value : Option Json) (field : String) (fallback : ℚ) : Checked Nat := do
  let parsed ← optionalNumber value field fallback
  (quotaAmount (.finite parsed) "quota").mapError Thrown.gateway

/-- A text that is cut to its length; anything else counts as absent. -/
def shortText (value : Option Json) (max : Nat) : Option String :=
  match value with
  | some (.str text) =>
      if jsTrim text = "" then none else some (String.ofList (jsTake max (jsTrim text).toList))
  | _ => none

/-- `parseDate` is the platform's, which answers nothing for an invalid date. -/
def expiryField (parseDate : String → Option Int) (value : Option Json) :
    Checked (Option Int) :=
  match value with
  | none | some .null | some (.str "") => .ok none
  | some value =>
      match parseDate (jsString value) with
      | none => rejected "expiresAt is not a valid date" "expiresAt"
      | some date => .ok (some date)

end Fields

section Users

def userNotFound : Thrown := .gateway (notFound "user not found")

def getUser (users : Collection AccountDoc) (id : String) : Checked AccountDoc :=
  match users.find id with
  | none => .error userNotFound
  | some user => .ok user

def findUserByUsername (users : Collection AccountDoc) (username : String) : Option AccountDoc :=
  users.findWhere fun user => user.username == username

def usernameTaken {α : Type} : Checked α := rejected "that username is taken" "username"

/-- The unique indexes: another account has the name, the address or the login of this one. -/
def accountTaken (users : Collection AccountDoc) (user : AccountDoc) : Bool :=
  users.docs.any fun other => other.id != user.id &&
    (other.username == user.username || (other.email.isSome && other.email == user.email) ||
      (other.credentials.githubId.isSome &&
        other.credentials.githubId == user.credentials.githubId))

/-- The account that a request creates, under an id of twelve drawn bytes. -/
def newAccount (idBytes : List UInt8) (now : Int) (username : String) (input : Record)
    (credentials : Credentials) : Checked AccountDoc := do
  let role ← asRole (input.field "role") .user
  let status ← asStatus (input.field "status") .enabled
  let quota ← quotaField (input.field "quota") "quota" 0
  return {
    id := bytesToHex idBytes, username := username, role := role, status := status, quota := quota
    displayName := (shortText (input.field "displayName") 200).getD username
    email := shortText (input.field "email") 200
    credentials := credentials
    group := match input.field "group" with
      | some (.str text) => if jsTrim text = "" then "default" else jsTrim text
      | _ => "default"
    quotaLedgerVersion := some QUOTA_LEDGER_VERSION, legacyUsedQuota := some 0, usedQuota := 0
    requestCount := 0, rpmLimit := none, tpmLimit := none, createdAt := now, updatedAt := now
    lastLoginAt := none, unspaced := jsTrim_bytesToHex idBytes }

/-- The body of the transaction of `createUser`. -/
def insertAccount (user : AccountDoc) (users : Collection AccountDoc) :
    Checked Unit × Collection AccountDoc :=
  if (findUserByUsername users user.username).isSome then (usernameTaken, users)
  else if accountTaken users user then (.error .fault, users)
  else
    match users.insertOne user with
    | none => (.error .fault, users)
    | some users => (.ok (), users)

def createUser (idBytes : List UInt8) (now : Int) (commit : Commit) (input : Record)
    (credentials : Credentials) (users : Collection AccountDoc) :
    Checked AccountDoc × Collection AccountDoc :=
  match requireText (input.field "username") "username" 64 with
  | .error e => (.error e, users)
  | .ok username =>
      if (findUserByUsername users username).isSome then (usernameTaken, users)
      else
        match newAccount idBytes now username input credentials with
        | .error e => (.error e, users)
        | .ok user =>
            let (inserted, users) := atomically .fault commit (insertAccount user) users
            (inserted.map fun _ => user, users)

/-- The fields that an edit sets. An empty address unsets the address. -/
structure UserUpdate where
  displayName : Option String
  email : Option String
  role : Option UserRole
  status : Option EntityStatus
  group : Option String
  quota : Option Nat
  rpmLimit : Option ℚ
  tpmLimit : Option ℚ
  updatedAt : Int

def UserUpdate.toUpdate (update : UserUpdate) : Update AccountDoc where
  apply user :=
    { user with
      displayName := update.displayName.getD user.displayName
      email := match update.email with
        | none => user.email
        | some email => if email = "" then none else some email
      role := update.role.getD user.role
      status := update.status.getD user.status
      group := update.group.getD user.group
      quota := (update.quota.map Nat.cast).getD user.quota
      rpmLimit := update.rpmLimit.or user.rpmLimit
      tpmLimit := update.tpmLimit.or user.tpmLimit
      updatedAt := update.updatedAt }
  key_apply _ := rfl

def userUpdate (now : Int) (user : AccountDoc) (patch : Record) : Checked UserUpdate := do
  let displayName ← patched patch "displayName" (requireText · "displayName" 200)
  let email := (patch.field "email").map fun value =>
    String.ofList (jsTake 200 (jsTrim (jsString value)).toList)
  let role ← patched patch "role" (asRole · user.role)
  let status ← patched patch "status" (asStatus · user.status)
  let group ← patched patch "group" (requireText · "group" 64)
  let quota ← patched patch "quota" (quotaField · "quota" user.quota)
  let rpmLimit ← patched patch "rpmLimit" (optionalNumber · "rpmLimit" 0)
  let tpmLimit ← patched patch "tpmLimit" (optionalNumber · "tpmLimit" 0)
  return ⟨displayName, email, role, status, group, quota, rpmLimit, tpmLimit, now⟩

/-- The balance that the edit is for, if it names one. -/
def expectedQuota (patch : Record) : Checked (Option Nat) :=
  match patch.field "expectedQuota" with
  | none => .ok none
  | some value =>
      if patch.has "quota" = false then
        rejected "expectedQuota requires a quota update" "expectedQuota"
      else (quotaField (some value) "expectedQuota" (-1)).map some

def balanceChanged {α : Type} : Checked α :=
  rejected ("The balance changed. Refresh the account and review the current amount " ++
    "before retrying.") "expectedQuota"

def updateUser (now : Int) (id : String) (patch : Record) (users : Collection AccountDoc) :
    Checked AccountDoc × Collection AccountDoc :=
  match do
    let user ← getUser users id
    let update ← userUpdate now user patch
    let expected ← expectedQuota patch
    return (user, update, expected) with
  | .error e => (.error e, users)
  | .ok (user, update, expected) =>
      if expected.all (fun quota => user.quota == quota) = false then (balanceChanged, users)
      else if accountTaken users (update.toUpdate.apply user) then (.error .fault, users)
      else
        let users := users.modify id update.toUpdate
        (getUser users id, users)

end Users

section Tokens

def getToken (tokens : Collection KeyDoc) (id : String) : Checked KeyDoc :=
  match tokens.find id with
  | none => .error (.gateway (notFound "token not found"))
  | some token => .ok token

structure GeneratedKey where
  key : String
  keyPrefix : String
  last4 : String
  digest : String

/-- The key of a prefix and a secret, which are drawn. -/
def generateApiKey (sha256Hex : String → String) (keyPepper keyPrefix secret : String) :
    GeneratedKey where
  key := KEY_SCHEME ++ "-" ++ keyPrefix ++ secret
  keyPrefix := keyPrefix
  last4 := String.ofList (secret.toList.drop (secret.toList.length - 4))
  digest := digestApiKey sha256Hex keyPepper keyPrefix secret

/-- The unique indexes: another token has the prefix or the digest of this one. -/
def tokenTaken (tokens : Collection KeyDoc) (token : KeyDoc) : Bool :=
  tokens.docs.any fun other => other.id != token.id &&
    (other.keyPrefix == token.keyPrefix || other.keyDigest == token.keyDigest)

def newToken (parseDate : String → Option Int) (idBytes : List UInt8) (generated : GeneratedKey)
    (now : Int) (users : Collection AccountDoc) (input : Record) : Checked KeyDoc := do
  let userId ← requireText (input.field "userId") "userId" 200
  let _ ← getUser users userId
  let expiresAt ← expiryField parseDate (input.field "expiresAt")
  let quota ← quotaField (input.field "quota") "quota" 0
  let allowedIps ← stringList (input.field "allowedIps") "allowedIps"
  let allowedModels ← stringList (input.field "allowedModels") "allowedModels"
  return {
    id := bytesToHex idBytes, userId := userId, status := .enabled, quota := quota
    name := (shortText (input.field "name") 120).getD "key"
    keyPrefix := generated.keyPrefix, keyDigest := generated.digest, keyLast4 := generated.last4
    quotaLedgerVersion := some QUOTA_LEDGER_VERSION, usedQuota := 0
    unlimitedQuota := match input.field "unlimitedQuota" with
      | some (.bool true) => true
      | _ => false
    expiresAt := expiresAt, allowedIps := allowedIps, allowedModels := allowedModels
    group := none, rpmLimit := none, tpmLimit := none, createdAt := now, updatedAt := now }

def createToken (parseDate : String → Option Int) (idBytes : List UInt8)
    (generated : GeneratedKey) (now : Int) (input : Record) (users : Collection AccountDoc)
    (tokens : Collection KeyDoc) : Checked KeyDoc × Collection KeyDoc :=
  match newToken parseDate idBytes generated now users input with
  | .error e => (.error e, tokens)
  | .ok token =>
      if tokenTaken tokens token then (.error .fault, tokens)
      else
        match tokens.insertOne token with
        | none => (.error .fault, tokens)
        | some tokens => (.ok token, tokens)

structure TokenUpdate where
  name : Option String
  status : Option EntityStatus
  quota : Option Nat
  unlimitedQuota : Option Bool
  allowedIps : Option (List String)
  allowedModels : Option (List String)
  expiresAt : Option (Option Int)
  updatedAt : Int

def TokenUpdate.toUpdate (update : TokenUpdate) : Update KeyDoc where
  apply token :=
    { token with
      name := update.name.getD token.name
      status := update.status.getD token.status
      quota := (update.quota.map Nat.cast).getD token.quota
      unlimitedQuota := update.unlimitedQuota.getD token.unlimitedQuota
      allowedIps := update.allowedIps.getD token.allowedIps
      allowedModels := update.allowedModels.getD token.allowedModels
      expiresAt := update.expiresAt.getD token.expiresAt
      updatedAt := update.updatedAt }
  key_apply _ := rfl

def tokenUpdate (parseDate : String → Option Int) (now : Int) (token : KeyDoc) (patch : Record) :
    Checked TokenUpdate := do
  let name ← patched patch "name" (requireText · "name" 120)
  let status ← patched patch "status" (asStatus · token.status)
  let quota ← patched patch "quota" (quotaField · "quota" token.quota)
  let unlimitedQuota := (patch.field "unlimitedQuota").map fun value => match value with
    | .bool true => true
    | _ => false
  let allowedIps ← patched patch "allowedIps" (stringList · "allowedIps")
  let allowedModels ← patched patch "allowedModels" (stringList · "allowedModels")
  let expiresAt ← patched patch "expiresAt" (expiryField parseDate)
  return ⟨name, status, quota, unlimitedQuota, allowedIps, allowedModels, expiresAt, now⟩

def updateToken (parseDate : String → Option Int) (now : Int) (id : String) (patch : Record)
    (tokens : Collection KeyDoc) : Checked KeyDoc × Collection KeyDoc :=
  match do
    let token ← getToken tokens id
    tokenUpdate parseDate now token patch with
  | .error e => (.error e, tokens)
  | .ok update =>
      let tokens := tokens.modify id update.toUpdate
      (getToken tokens id, tokens)

def deleteToken (id : String) (tokens : Collection KeyDoc) : Checked Unit × Collection KeyDoc :=
  match getToken tokens id with
  | .error e => (.error e, tokens)
  | .ok _ => (.ok (), tokens.deleteOne id)

def replaceKey (generated : GeneratedKey) (now : Int) : Update KeyDoc where
  apply token :=
    { token with
      keyPrefix := generated.keyPrefix
      keyDigest := generated.digest
      keyLast4 := generated.last4
      updatedAt := now }
  key_apply _ := rfl

def rotateToken (generated : GeneratedKey) (now : Int) (id : String) (tokens : Collection KeyDoc) :
    Checked KeyDoc × Collection KeyDoc :=
  match getToken tokens id with
  | .error e => (.error e, tokens)
  | .ok token =>
      if tokenTaken tokens ((replaceKey generated now).apply token) then (.error .fault, tokens)
      else
        let tokens := tokens.modify id (replaceKey generated now)
        (getToken tokens id, tokens)

end Tokens

end Gateway.Admin
