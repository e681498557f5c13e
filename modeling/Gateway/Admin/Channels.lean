import Gateway.Routing.Abilities
import Gateway.Util.JsonText
import Gateway.Util.Sanitize

/-!
The operator's edit of a channel.

A patch is checked field by field, in the order of the source, and the first
failure ends the request before anything is written. What is written is the
fields that the patch names.
-/

namespace Gateway

/-- A channel as it is stored, less the fields that only its creation sets. -/
structure StoredChannel extends ChannelDoc where
  name : String
  baseUrl : String
  modelMapping : List (String × String)
  headers : List (String × String)
  testModel : Option String
  autoDisabled : Bool
  failCount : Nat
  rpmLimit : Option ℚ
  config : Record
  updatedAt : Int

instance : Document StoredChannel String := ⟨fun channel => channel.id⟩

section Checks

abbrev Checked := Except Thrown

def rejected {α : Type} (message field : String) : Checked α :=
  .error (.gateway (invalidParam message field))

def requireText (value : Option Json) (field : String) (max : Nat) : Checked String :=
  match value with
  | some (.str text) =>
      if jsTrim text = "" then rejected (field ++ " is required") field
      else if max < jsLength text then rejected (field ++ " is too long") field
      else .ok (jsTrim text)
  | _ => rejected (field ++ " is required") field

def optionalNumber (value : Option Json) (field : String) (fallback : ℚ) : Checked ℚ :=
  match value with
  | none | some .null => .ok fallback
  | some value =>
      match toNumber (some value) with
      | .finite parsed => .ok parsed
      | _ => rejected (field ++ " must be a number") field

def stringList (value : Option Json) (field : String) : Checked (List String) :=
  match value with
  | none | some .null => .ok []
  | some (.arr items) =>
      if 200 < items.length then rejected (field ++ " has too many entries") field
      else
        items.zipIdx.mapM fun (entry, index) =>
          requireText (some entry) (field ++ "[" ++ toString index ++ "]") 200
  | some _ => rejected (field ++ " must be an array") field

def asStatus (value : Option Json) (fallback : EntityStatus) : Checked EntityStatus :=
  match value with
  | none | some .null => .ok fallback
  | some (.str "enabled") => .ok .enabled
  | some (.str "disabled") => .ok .disabled
  | some (.str "deleted") => .ok .deleted
  | some _ => rejected "status must be enabled, disabled, or deleted" "status"

/-- Assignment to a record of texts. -/
def setText (entries : List (String × String)) (name value : String) : List (String × String) :=
  if entries.any (·.1 == name) then
    entries.map fun entry => if entry.1 = name then (name, value) else entry
  else entries ++ [(name, value)]

def asMapping (value : Option Json) : Checked (List (String × String)) :=
  match value with
  | none | some .null => .ok []
  | some (.obj entries) =>
      entries.foldlM (fun out (source, target) => do
        let source ← requireText (some (.str source)) "modelMapping key" 200
        let target ← requireText (some target) "modelMapping value" 200
        return setText out source target) []
  | some _ => rejected "modelMapping must be an object" "modelMapping"

def credentialHeaders : List String :=
  ["authorization", "x-api-key", "x-goog-api-key", "api-key", "mj-api-secret", "cookie",
    "set-cookie", "proxy-authorization"]

def hasHeaderInjection (value : String) : Bool :=
  value.toList.any fun c => (c.val < 0x20 && c.val != 0x09) || c.val == 0x7F

def isSafeHeaderName (name : String) : Bool :=
  !name.isEmpty && name.toList.all fun c => c.isAlphanum || "!#$%&'*+.^_`|~-".toList.contains c

def asHeaders (value : Option Json) : Checked (List (String × String)) :=
  match value with
  | none | some .null => .ok []
  | some (.obj entries) =>
      entries.foldlM (fun out (name, entry) => do
        let lower := jsToLower (← requireText (some (.str name)) "header name" 120)
        if credentialHeaders.contains lower then
          rejected "credential headers are managed by the gateway" "headers"
        match isSafeHeaderName lower, requireText (some entry) "header value" 1000 with
        | true, .ok text =>
            if hasHeaderInjection text || decide (8192 < jsLength text) then
              rejected "invalid channel header" "headers"
            else return setText out lower text
        | _, _ => rejected "invalid channel header" "headers") []
  | some _ => rejected "headers must be an object" "headers"

/-- One or more segments of letters, digits, `_` and `-`, each after a slash. -/
def isLocalPath (path : String) : Bool :=
  match path.toList.splitOn '/' with
  | [] :: first :: rest => (first :: rest).all fun segment =>
      !segment.isEmpty && segment.all fun c => c.isAlphanum || c == '_' || c == '-'
  | _ => false

def channelConfig (limits : JsonLimits) (value : Option Json) : Checked Record :=
  match value with
  | none | some .null => .ok []
  | some (.obj fields) => do
      let config ← sanitizeParsed limits fields
      match config.field "submitPaths" with
      | none => return config
      | some submitPaths =>
          let paths ← stringList (some submitPaths) "submitPaths"
          if paths.any (fun path => !isLocalPath path) then
            .error (.gateway
              (invalidRequest "submitPaths must contain exact, unencoded local paths"))
          else return config.set "submitPaths" (.arr (paths.map .str))
  | some _ => rejected "config must be an object" "config"

mutual

/-- `String(value)` -/
def jsString : Json → String
  | .null => "null"
  | .bool value => if value then "true" else "false"
  | .num (.finite q) => String.ofList (numberText q)
  | .num .nan => "NaN"
  | .num .infinity => "Infinity"
  | .num .negInfinity => "-Infinity"
  | .str text => text
  | .arr items => jsJoin items
  | .obj _ => "[object Object]"

/-- `items.join(",")`, in which `null` is empty. -/
def jsJoin : List Json → String
  | [] => ""
  | [.null] => ""
  | [item] => jsString item
  | .null :: rest => "," ++ jsJoin rest
  | item :: rest => jsString item ++ "," ++ jsJoin rest

end

end Checks

/-- The fields an edit sets. -/
structure ChannelUpdate where
  name : Option String
  baseUrl : Option String
  status : Option EntityStatus
  priority : Option ℚ
  weight : Option ℚ
  groups : Option (List String)
  models : Option (List String)
  modelMapping : Option (List (String × String))
  headers : Option (List (String × String))
  config : Option Record
  testModel : Option String
  rpmLimit : Option ℚ
  /-- `autoDisabled` and `failCount` are set together, to `false` and 0. -/
  reenabled : Bool
  updatedAt : Int

def ChannelUpdate.toUpdate (update : ChannelUpdate) : Update StoredChannel where
  apply channel :=
    { channel with
      name := update.name.getD channel.name
      baseUrl := update.baseUrl.getD channel.baseUrl
      status := update.status.getD channel.status
      priority := update.priority.getD channel.priority
      weight := update.weight.getD channel.weight
      groups := update.groups.getD channel.groups
      models := update.models.getD channel.models
      modelMapping := update.modelMapping.getD channel.modelMapping
      headers := update.headers.getD channel.headers
      config := update.config.getD channel.config
      testModel := update.testModel.or channel.testModel
      rpmLimit := update.rpmLimit.or channel.rpmLimit
      autoDisabled := if update.reenabled then false else channel.autoDisabled
      failCount := if update.reenabled then 0 else channel.failCount
      updatedAt := update.updatedAt }
  key_apply _ := rfl

/-- A field that the patch names, checked. -/
def patched {α : Type} (patch : Record) (field : String) (check : Option Json → Checked α) :
    Checked (Option α) :=
  match patch.field field with
  | none => .ok none
  | some value => (check (some value)).map some

def channelUpdate (limits : JsonLimits) (now : Int) (channel : StoredChannel) (patch : Record) :
    Checked ChannelUpdate := do
  let name ← patched patch "name" (requireText · "name" 120)
  let baseUrl ← patched patch "baseUrl" (requireText · "baseUrl" 500)
  let status ← patched patch "status" (asStatus · channel.status)
  let priority ← patched patch "priority" (optionalNumber · "priority" channel.priority)
  let weight ← patched patch "weight" (optionalNumber · "weight" channel.weight)
  let groups ← patched patch "groups" (stringList · "groups")
  let models ← patched patch "models" (stringList · "models")
  let modelMapping ← patched patch "modelMapping" asMapping
  let headers ← patched patch "headers" asHeaders
  let config ← patched patch "config" (channelConfig limits)
  let testModel := (patch.field "testModel").map fun value =>
    String.ofList (jsTake 200 (jsString value).toList)
  let rpmLimit ← patched patch "rpmLimit" (optionalNumber · "rpmLimit" 0)
  let reenabled := match patch.field "autoDisabled" with
    | some (.bool false) => true
    | _ => decide (status = some .enabled)
  return ⟨name, baseUrl, status, priority, weight, groups, models, modelMapping, headers, config,
    testModel, rpmLimit, reenabled, now⟩

def channelNotFound : GatewayError := notFound "channel not found"

/-- The edit of the collection. The ability table is rebuilt from it afterwards. -/
def updateChannel (limits : JsonLimits) (now : Int) (id : String) (patch : Record)
    (channels : Collection StoredChannel) : Checked (Collection StoredChannel) :=
  match channels.find id with
  | none => .error (.gateway channelNotFound)
  | some channel => do
      let update ← channelUpdate limits now channel patch
      return channels.updateOne id (fun _ => true) update.toUpdate

end Gateway
