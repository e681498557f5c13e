import Gateway.Admin.Accounts
import Gateway.Admin.Rebuilds
import Gateway.Pricing.Overrides
import Gateway.Routing.Keys
import Gateway.Routing.Mapping

/-!
The collections of the console, and the edits of those that hold no accounts.

The redemption of a code is the one of the quota ledger: it runs on the accounts and
the codes as the ledger sees them, and the balances are put back into the accounts.
-/

namespace Gateway.Admin

open Transaction

section Stores

structure GroupRatioDoc where
  id : String
  ratio : ℚ
  description : Option String
  updatedAt : Int
deriving DecidableEq

instance : Document GroupRatioDoc String := ⟨GroupRatioDoc.id⟩

/-- A value that a request leaves out is stored as none. -/
structure SettingDoc where
  id : String
  value : Option Json
  updatedAt : Int

instance : Document SettingDoc String := ⟨SettingDoc.id⟩

/-- An entry as it is handed to the audit trail. -/
structure AuditEntry where
  actorId : String
  actorRole : Auth.UserRole
  action : String
  targetType : String
  targetId : String
  entryMeta : Record
  ipHash : String

structure AdminDb where
  users : Collection AccountDoc
  tokens : Collection KeyDoc
  codes : Collection RedemptionCodeDoc
  channels : Collection StoredChannel
  channelKeys : Collection ChannelKeyDoc
  abilities : Collection AbilityDoc
  pricing : PricingStore
  mappings : MappingStores
  groupRatios : Collection GroupRatioDoc
  settings : Collection SettingDoc
  trail : List AuditEntry

end Stores

section Codes

/-- The ledger's part of the database. -/
def AdminDb.ledger (db : AdminDb) : LedgerDb where
  users := db.users.mapDocs AccountDoc.toUserDoc fun _ => rfl
  tokens := db.tokens.mapDocs KeyDoc.toTokenDoc fun _ => rfl
  journal := .empty
  codes := db.codes

/-- An account, with what the ledger keeps of it put back. -/
def withLedger (ledger : LedgerDb) (user : AccountDoc) : AccountDoc :=
  match found : ledger.users.find user.id with
  | none => user
  | some kept =>
      { user with
        toUserDoc := kept
        unspaced := by
          rw [show kept.id = user.id from Collection.key_of_find found]
          exact user.unspaced }

theorem withLedger_id (ledger : LedgerDb) (user : AccountDoc) :
    (withLedger ledger user).id = user.id := by
  rw [withLedger]
  split
  · rfl
  · next kept found => exact Collection.key_of_find found

def redeem (codeDigestFor : String → String) (attempts : Checked Unit) (rawCode userId : String)
    (now : Int) (commit : Commit) (db : AdminDb) : Checked RedeemResult × AdminDb :=
  let (result, ledger) := redeemCode codeDigestFor attempts rawCode userId now commit db.ledger
  (result,
    { db with
      users := db.users.mapDocs (withLedger ledger) (withLedger_id ledger)
      codes := ledger.codes })

/-- `Math.min(Math.max(Math.floor(count), 1), MAX_BATCH)`, as often as a loop runs up to it. -/
def batchCount : JsNumber → Nat
  | .finite count => (min (max ⌊count⌋ 1) 500).toNat
  | .infinity => 500
  | .negInfinity => 1
  | .nan => 0

def codeTaken (codes : Collection RedemptionCodeDoc) (code : RedemptionCodeDoc) : Bool :=
  codes.docs.any fun other => other.codeDigest == code.codeDigest

/-- What is drawn for a batch: its id, and the id and the text of each of its codes. -/
structure BatchDraw where
  batchId : String
  idBytes : Nat → List UInt8
  code : Nat → String

def batchDocs (codeDigestFor : String → String) (draw : BatchDraw) (count quota : Nat)
    (expiresAt : Option Int) : List RedemptionCodeDoc :=
  (List.range count).map fun index =>
    { id := bytesToHex (draw.idBytes index), codeDigest := codeDigestFor (draw.code index)
      quota := quota, status := .unused, usedBy := none, usedAt := none, expiresAt := expiresAt }

structure Batch where
  batchId : String
  codes : List String

def createRedemptionBatch (codeDigestFor : String → String) (draw : BatchDraw)
    (count quota : JsNumber) (expiresAt : Option Int) (codes : Collection RedemptionCodeDoc) :
    Checked Batch × Collection RedemptionCodeDoc :=
  match do
    let given ← (positive (some (.num quota)) "quota").mapError Thrown.gateway
    (quotaAmount (.finite given) "quota").mapError Thrown.gateway with
  | .error e => (.error e, codes)
  | .ok quota =>
      let docs := batchDocs codeDigestFor draw (batchCount count) quota expiresAt
      match codes.insertInOrder codeTaken docs with
      | (false, codes) => (.error .fault, codes)
      | (true, codes) =>
          (.ok ⟨draw.batchId, (List.range (batchCount count)).map draw.code⟩, codes)

end Codes

section Catalogue

def setRatio (doc : GroupRatioDoc) : Update GroupRatioDoc where
  apply row :=
    { row with
      ratio := doc.ratio
      description := doc.description.or row.description
      updatedAt := doc.updatedAt }
  key_apply _ := rfl

def upsertGroupRatio (now : Int) (input : Record) (ratios : Collection GroupRatioDoc) :
    Checked GroupRatioDoc × Collection GroupRatioDoc :=
  match do
    let group ← nameField (coalesce (input.field "group") (input.field "_id")) "group" 64
    let ratio ← positive (input.field "ratio") "ratio"
    return (group, ratio) with
  | .error e => (.error (.gateway e), ratios)
  | .ok (group, ratio) =>
      let description := match input.field "description" with
        | some (.str text) => some (String.ofList (jsTake 500 text.toList))
        | _ => none
      let doc : GroupRatioDoc := ⟨group, ratio, description, now⟩
      (.ok doc, ratios.upsert doc (setRatio doc))

def setValue (value : Option Json) (now : Int) : Update SettingDoc where
  apply row := { row with value := value.or row.value, updatedAt := now }
  key_apply _ := rfl

def setSetting (now : Int) (key : String) (value : Option Json) (settings : Collection SettingDoc) :
    Checked Unit × Collection SettingDoc :=
  match name key "key" 120 with
  | .error e => (.error (.gateway e), settings)
  | .ok id => (.ok (), settings.upsert ⟨id, value, now⟩ (setValue value now))

/-- The text of a field that may be absent. -/
def fieldText (value : Option Json) : Option String :=
  match value with
  | some (.str text) => some text
  | _ => none

def editMapping (now : Int) (input : Record) (mappings : MappingStores) :
    Checked ModelMappingDoc × MappingStores :=
  match do
    let source ← nameField (input.field "from") "from" 200
    let target ← nameField (input.field "to") "to" 200
    return (source, target) with
  | .error e => (.error (.gateway e), mappings)
  | .ok (source, target) =>
      upsertMapping mappings source target (fieldText (input.field "channelId")) now

end Catalogue

section Channels

/-- The channels and the abilities rebuilt from them, with the generations that this raises. -/
def AdminDb.withChannels (db : AdminDb) (now : Int) (raised : Nat)
    (channels : Collection StoredChannel) : AdminDb :=
  { db with
    channels := channels
    abilities := (rebuildAbilities now (routed channels)).2
    mappings := { db.mappings with generation := db.mappings.generation + raised } }

def keyTaken (keys : Collection ChannelKeyDoc) (key : ChannelKeyDoc) : Bool :=
  keys.docs.any fun other => other.channelId == key.channelId && other.index == key.index

/-- `deleteMany` of the keys of a channel. -/
def withoutKeys (channelId : String) (keys : Collection ChannelKeyDoc) :
    Collection ChannelKeyDoc where
  docs := keys.docs.filter fun key => key.channelId != channelId
  distinct := keys.distinct.sublist (List.filter_sublist.map Document.key)

/-- `sealedKeys` is what the sealing of the keys gives. -/
def createChannel (limits : JsonLimits) (now : Int) (idBytes : List UInt8)
    (sealedKeys : Checked (List ChannelKeyDoc)) (input : Record) (db : AdminDb) :
    Checked StoredChannel × AdminDb :=
  match do
    let channel ← newChannel limits now (bytesToHex idBytes) input
    let keys ← sealedKeys
    return (channel, keys) with
  | .error e => (.error e, db)
  | .ok (channel, keys) =>
      match (ChannelWrite.insert channel).apply db.channels with
      | none => (.error .fault, db)
      | some channels =>
          match db.channelKeys.insertInOrder keyTaken keys with
          | (false, keys) => (.error .fault, { db with channels := channels, channelKeys := keys })
          | (true, keys) =>
              (.ok channel, { db with channelKeys := keys }.withChannels now 2 channels)

def editChannel (limits : JsonLimits) (now : Int) (id : String) (patch : Record) (db : AdminDb) :
    Checked StoredChannel × AdminDb :=
  match db.channels.find id with
  | none => (.error (.gateway channelNotFound), db)
  | some channel =>
      match channelUpdate limits now channel patch with
      | .error e => (.error e, db)
      | .ok update =>
          match (ChannelWrite.set id update).apply db.channels with
          | none => (.error .fault, db)
          | some channels => (.ok (update.toUpdate.apply channel), db.withChannels now 2 channels)

def deleteChannel (now : Int) (id : String) (db : AdminDb) : Checked Unit × AdminDb :=
  match db.channels.find id with
  | none => (.error (.gateway channelNotFound), db)
  | some _ =>
      (.ok (), { db with channelKeys := withoutKeys id db.channelKeys }.withChannels now 2
        (db.channels.deleteOne id))

/-- The keys of a channel are dropped before the new ones are written. -/
def replaceChannelKeys (sealedKeys : Checked (List ChannelKeyDoc)) (id : String)
    (secrets : List Json) (db : AdminDb) : Checked Nat × AdminDb :=
  match db.channels.find id with
  | none => (.error (.gateway channelNotFound), db)
  | some _ =>
      if secrets.isEmpty then (rejected "at least one key is required" "keys", db)
      else
        match sealedKeys with
        | .error e => (.error e, db)
        | .ok keys =>
            match (withoutKeys id db.channelKeys).insertInOrder keyTaken keys with
            | (false, stored) => (.error .fault, { db with channelKeys := stored })
            | (true, stored) => (.ok keys.length, { db with channelKeys := stored })

end Channels

end Gateway.Admin
