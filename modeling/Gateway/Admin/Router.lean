import Gateway.Admin.Console
import Gateway.Admin.Guard

/-!
The dispatcher of the console.

A request passes the gate, its body is read, and the route that its path and its method
name runs to its end. What is drawn for it, and what it meets outside the database, is
part of the request.
-/

namespace Gateway.Admin

open Gateway.Auth Transaction

/-- A request with everything that its route draws or meets. -/
structure AdminCall extends AdminRequest where
  now : Int
  /-- how a transaction of the database ends -/
  commit : Commit
  /-- the answer of the limit on redemptions -/
  attempts : Checked Unit
  idBytes : List UInt8
  keyPrefix : String
  secret : String
  batch : BatchDraw
  sealedKeys : Checked (List ChannelKeyDoc)
  /-- what the probes of the channels record -/
  probed : Collection StoredChannel → Collection StoredChannel
  /-- whether a price cannot be read after it is written -/
  pricingReadFails : Bool

/-- The answers, but for what the reports read from usage, codes and the audit trail, and for the
counts of the keys of a channel. -/
inductive AdminReply where
  | report
  | whoami (context : AdminContext)
  | users (rows : List UserView)
  | user (row : UserView)
  | tokens (rows : List TokenView)
  | token (row : TokenView)
  | minted (row : TokenView) (key : String)
  | deleted
  | saved
  | channels (rows : List StoredChannel)
  | channel (row : StoredChannel)
  | keyCount (count : Nat)
  | prices (rows : List ModelPricingDoc)
  | price (row : ModelPricingDoc)
  | mappings (rows : List ModelMappingDoc)
  | mapping (row : ModelMappingDoc)
  | ratios (rows : List GroupRatioDoc)
  | ratio (row : GroupRatioDoc)
  | settings (rows : List SettingDoc)
  | batch (batch : Batch)
  | redeemed (result : RedeemResult)

/-- The outcome of a route, or none where the path and the method name no route. -/
abbrev Routed := Option (Checked AdminReply × AdminDb)

section Outcomes

def elevatedOnly : Thrown :=
  .gateway (forbidden "only root can manage elevated accounts and their credentials")

def isUserText : Json → Bool
  | .str "user" => true
  | _ => false

/-- Administrators manage members; only root can create or change authorities. -/
def assertCanManageUser (context : AdminContext) (target : Option AccountDoc)
    (nextRole : Option Json) : Checked Unit :=
  if context.role = .root then .ok ()
  else if target.any (fun user => user.role != .user) || nextRole.any (fun role => !isUserText role)
    then .error elevatedOnly
  else .ok ()

/-- A check that ends the request where it throws. -/
def guarded {α : Type} (db : AdminDb) (check : Checked α)
    (next : α → Checked AdminReply × AdminDb) : Checked AdminReply × AdminDb :=
  match check with
  | .error e => (.error e, db)
  | .ok value => next value

/-- The entry of an edit that was made, and the answer to it. -/
def concluded {α : Type} (context : AdminContext) (db : AdminDb) (result : Checked α)
    (action targetType : String) (target : α → String) (entryMeta : α → Record)
    (reply : α → AdminReply) : Checked AdminReply × AdminDb :=
  match result with
  | .error e => (.error e, db)
  | .ok value =>
      (.ok (reply value),
        { db with
          trail := db.trail ++ [⟨context.userId, context.role, action, targetType, target value,
            entryMeta value, context.ipHash⟩] })

end Outcomes

section Routes

variable (config : AdminConfig) (platform : ConsolePlatform) (codeDigestFor : String → String)
  (context : AdminContext) (call : AdminCall) (body : Record) (db : AdminDb)

/-- `PATCH` or `PUT` -/
def isPatch (method : String) : Bool := method == "PATCH" || method == "PUT"

/-- `POST` or `PUT` -/
def isUpsert (method : String) : Bool := method == "POST" || method == "PUT"

/-- `String(value ?? "")` -/
def textOr (value : Option Json) : String :=
  match value with
  | none | some .null => ""
  | some value => jsString value

def newestFirst {α : Type} (createdAt : α → Int) (rows : List α) : List α :=
  rows.mergeSort fun a b => decide (createdAt b ≤ createdAt a)

def usersRoute (method second : String) : Routed :=
  if second = "" then
    if method = "GET" then
      some (.ok (.users ((paged call.toAdminRequest
        (newestFirst AccountDoc.createdAt db.users.docs)).map userView)), db)
    else if method = "POST" then
      some (guarded db (assertCanManageUser context none (body.field "role")) fun _ =>
        let (created, users) := createUser call.idBytes call.now call.commit body noCredentials
          db.users
        concluded context { db with users := users } created "user.create" "user" (·.id)
          (fun user => [("username", .str user.username)]) (.user ∘ userView))
    else none
  else if method = "GET" then
    some ((getUser db.users second).map (.user ∘ userView), db)
  else if isPatch method then
    some (guarded db (do
      let target ← getUser db.users second
      assertCanManageUser context (some target) (body.field "role")) fun _ =>
        let (updated, users) := updateUser call.now second body db.users
        concluded context { db with users := users } updated "user.update" "user" (fun _ => second)
          (fun _ => body) (.user ∘ userView))
  else none

def generatedKey : GeneratedKey :=
  generateApiKey platform.auth.sha256Hex config.keyPepper call.keyPrefix call.secret

/-- The caller may manage the owner of the token. -/
def assertCanManageToken (id : String) : Checked Unit := do
  let token ← getToken db.tokens id
  let owner ← getUser db.users token.userId
  assertCanManageUser context (some owner) none

def tokensRoute (method second third : String) : Routed :=
  let generated := generatedKey config platform call
  if second = "" then
    if method = "GET" then
      let owned := fun token : KeyDoc => ((call.query "userId").filter (· ≠ "")).all
        fun userId => token.userId == userId
      some (.ok (.tokens ((paged call.toAdminRequest
        (newestFirst KeyDoc.createdAt (db.tokens.docs.filter owned))).map tokenView)), db)
    else if method = "POST" then
      some (guarded db (do
        let owner ← getUser db.users (textOr (body.field "userId"))
        assertCanManageUser context (some owner) none) fun _ =>
          let (created, tokens) := createToken platform.parseDate call.idBytes generated call.now
            body db.users db.tokens
          concluded context { db with tokens := tokens } created "token.create" "token" (·.id)
            (fun token => [("userId", .str token.userId)])
            (fun token => .minted (tokenView token) generated.key))
    else none
  else if third = "rotate" ∧ method = "POST" then
    some (guarded db (assertCanManageToken context db second) fun _ =>
      let (rotated, tokens) := rotateToken generated call.now second db.tokens
      concluded context { db with tokens := tokens } rotated "token.rotate" "token"
        (fun _ => second) (fun _ => []) (fun token => .minted (tokenView token) generated.key))
  else if method = "GET" then
    some ((getToken db.tokens second).map (.token ∘ tokenView), db)
  else if isPatch method then
    some (guarded db (assertCanManageToken context db second) fun _ =>
      let (updated, tokens) := updateToken platform.parseDate call.now second body db.tokens
      concluded context { db with tokens := tokens } updated "token.update" "token"
        (fun _ => second) (fun _ => body) (.token ∘ tokenView))
  else if method = "DELETE" then
    some (guarded db (assertCanManageToken context db second) fun _ =>
      let (removed, tokens) := deleteToken second db.tokens
      concluded context { db with tokens := tokens } removed "token.delete" "token"
        (fun _ => second) (fun _ => []) (fun _ => .deleted))
  else none

/-- The limits that `sanitizeParsed` applies by default. -/
def jsonLimits : JsonLimits := JsonParseOptions.limits config.toJsonConfig {}

def byPriority (rows : List StoredChannel) : List StoredChannel :=
  rows.mergeSort fun a b => decide (b.priority ≤ a.priority)

def channelsRoute (method second third : String) : Routed :=
  let limits := jsonLimits config
  if second = "test" ∧ method = "POST" then
    some (concluded context (db.withChannels call.now 1 (call.probed db.channels)) (.ok ())
      "channel.test" "channel" (fun _ => "*") (fun _ => []) (fun _ => .report))
  else if second = "" then
    if method = "GET" then
      some (.ok (.channels (paged call.toAdminRequest (byPriority db.channels.docs))), db)
    else if method = "POST" then
      let (created, db) := createChannel limits call.now call.idBytes call.sealedKeys body db
      some (concluded context db created "channel.create" "channel" (·.id) (fun _ => body)
        .channel)
    else none
  else if third = "keys" ∧ method = "POST" then
    let (replaced, db) := replaceChannelKeys call.sealedKeys second (asArray (body.field "keys")) db
    some (concluded context db replaced "channel.keys.replace" "channel" (fun _ => second)
      (fun count => [("count", .ofNat count)]) .keyCount)
  else if isPatch method then
    let (updated, db) := editChannel limits call.now second body db
    some (concluded context db updated "channel.update" "channel" (fun _ => second) (fun _ => body)
      .channel)
  else if method = "DELETE" then
    let (removed, db) := deleteChannel call.now second db
    some (concluded context db removed "channel.delete" "channel" (fun _ => second) (fun _ => [])
      (fun _ => .deleted))
  else none

/-- `decodeURIComponent`, which throws for a malformed text. -/
def decoded (second : String) : Checked String :=
  match platform.decodeURIComponent second with
  | none => .error .fault
  | some text => .ok text

def pricingRoute (method second : String) : Routed :=
  if second = "" then
    if method = "GET" then some (.ok (.prices (db.pricing.rows.docs.take 500)), db)
    else if isUpsert method then
      let (saved, pricing) :=
        upsertPricing platform.toLowerCase body call.pricingReadFails db.pricing
      some (concluded context { db with pricing := pricing } saved "pricing.upsert" "pricing"
        (·.id) (fun _ => body) .price)
    else none
  else if method = "DELETE" then
    some (guarded db (decoded platform second) fun model =>
      concluded context
        { db with pricing := deletePricing platform.toLowerCase model db.pricing } (.ok ())
        "pricing.delete" "pricing" (fun _ => second) (fun _ => []) (fun _ => .deleted))
  else none

def mappingsRoute (method second : String) : Routed :=
  if second = "" then
    if method = "GET" then some (.ok (.mappings (db.mappings.rows.docs.take 500)), db)
    else if isUpsert method then
      let (saved, mappings) := editMapping call.now body db.mappings
      some (concluded context { db with mappings := mappings } saved "mapping.upsert" "mapping"
        (·.id) (fun _ => body) .mapping)
    else none
  else if method = "DELETE" then
    some (guarded db (decoded platform second) fun id =>
      concluded context { db with mappings := deleteMapping db.mappings id } (.ok ())
        "mapping.delete" "mapping" (fun _ => second) (fun _ => []) (fun _ => .deleted))
  else none

def groupRatiosRoute (method : String) : Routed :=
  if method = "GET" then some (.ok (.ratios (db.groupRatios.docs.take 200)), db)
  else if isUpsert method then
    let (saved, ratios) := upsertGroupRatio call.now body db.groupRatios
    some (concluded context { db with groupRatios := ratios } saved "groupRatio.upsert" "groupRatio"
      (·.id) (fun _ => body) .ratio)
  else none

/-- What JavaScript takes for false. -/
def isFalsy : Option Json → Bool
  | none | some .null | some (.bool false) | some (.str "") | some (.num .nan) => true
  | some (.num n) => n.isZero
  | _ => false

def redemptionRoute (method : String) : Routed :=
  if method = "GET" then some (.ok .report, db)
  else if method = "POST" then
    let expiresAt := if isFalsy (body.field "expiresAt") then none
      else platform.parseDate (textOr (body.field "expiresAt"))
    let (created, codes) := createRedemptionBatch codeDigestFor call.batch
      (toNumber (coalesce (body.field "count") (some (.ofNat 1))))
      (toNumber (coalesce (body.field "quota") (some (.ofNat 0)))) expiresAt db.codes
    some (concluded context { db with codes := codes } created "redemption.create" "redemption"
      (·.batchId)
      (fun batch => ("count", .ofNat batch.codes.length) ::
        ((body.field "quota").map fun quota => ("quota", quota)).toList) .batch)
  else none

def redeemRoute (method : String) : Routed :=
  if method = "POST" then
    let (result, db) := redeem codeDigestFor call.attempts (textOr (body.field "code"))
      context.userId call.now call.commit db
    some (concluded context db result "redemption.redeem" "user" (fun _ => context.userId)
      (fun result => [("quota", .ofRat result.quota)]) .redeemed)
  else none

def settingsRoute (method : String) : Routed :=
  if method = "GET" then some (.ok (.settings (db.settings.docs.take 200)), db)
  else if isUpsert method then
    let key := textOr (body.field "key")
    let (saved, settings) := setSetting call.now key (body.field "value") db.settings
    some (concluded context { db with settings := settings } saved "setting.set" "setting"
      (fun _ => key) (fun _ => [("key", .str key)]) (fun _ => .saved))
  else none

def route (head second third method : String) : Routed :=
  match head with
  | "" | "overview" => some (.ok .report, db)
  | "whoami" => some (.ok (.whoami context), db)
  | "users" => usersRoute context call body db method second
  | "tokens" => tokensRoute config platform context call body db method second third
  | "channels" => channelsRoute config context call body db method second third
  | "pricing" => pricingRoute platform context call body db method second
  | "mappings" => mappingsRoute platform context call body db method second
  | "group-ratios" => groupRatiosRoute context call body db method
  | "redemption" => redemptionRoute platform codeDigestFor context call body db method
  | "redeem" => redeemRoute codeDigestFor context call body db method
  | "settings" => settingsRoute context call body db method
  | "usage" | "audit" => if method = "GET" then some (.ok .report, db) else none
  | _ => none

end Routes

section Requests

variable (config : AdminConfig) (platform : ConsolePlatform) (codeDigestFor : String → String)

def segment (call : AdminCall) (index : Nat) : String := call.segments.getD index ""

/-- `redeem` is the one route that an ordinary user may call. -/
def minimumRole (call : AdminCall) : UserRole := if segment call 0 = "redeem" then .user else .admin

/-- The caller that a request is served for. -/
def callerOf (call : AdminCall) (db : AdminDb) : Checked AdminContext :=
  requireAdmin config platform (minimumRole call) call.toAdminRequest db.users

def noRoute (call : AdminCall) : Thrown :=
  .gateway (notFound ("no admin route for " ++ call.method.toUpper ++ " /" ++
    String.intercalate "/" call.segments))

def handleAdminRequest (call : AdminCall) (db : AdminDb) : Checked AdminReply × AdminDb :=
  match callerOf config platform call db with
  | .error e => (.error e, db)
  | .ok context =>
      match readAdminBody config call.toAdminRequest with
      | .error e => (.error e, db)
      | .ok body =>
          (route config platform codeDigestFor context call body db (segment call 0)
            (segment call 1) (segment call 2) call.method.toUpper).getD (.error (noRoute call), db)

def adminStep (db : AdminDb) (call : AdminCall) : AdminDb × Checked AdminReply :=
  ((handleAdminRequest config platform codeDigestFor call db).2,
    (handleAdminRequest config platform codeDigestFor call db).1)

end Requests

end Gateway.Admin
