import Gateway.Http.Headers
import Gateway.Util.Json

/-!
The credential of a request: where it is carried, and what a key is made of.
-/

namespace Gateway

section Extraction

inductive CredentialSource where
  | authorization
  | xApiKey
  | apiKey
  | xGoogApiKey
  | mjApiSecret
  | websocket
  | query
  | none
deriving DecidableEq, Repr

structure ExtractedCredential where
  raw : String
  source : CredentialSource
deriving DecidableEq, Repr

/-- What is read of a request; `queryKey` is the parameter `key` of a URL that parses. -/
structure RelayRequest where
  headers : Headers
  queryKey : Option String

def WS_KEY_PREFIX : String := "openai-insecure-api-key."

def MAX_CREDENTIAL_LENGTH : Nat := 512

def clean (value : Option String) : String :=
  let trimmed := jsTrim (value.getD "")
  if MAX_CREDENTIAL_LENGTH < jsLength trimmed then "" else trimmed

/-- Strips a `Bearer ` prefix, case-insensitively, tolerating extra spaces. -/
def stripBearer (value : String) : String :=
  let trimmed := jsTrim value
  if jsLength trimmed < 7 then trimmed
  else if jsToLower (String.ofList (trimmed.toList.take 6)) ≠ "bearer" then trimmed
  else
    match trimmed.toList.drop 6 with
    | [] => trimmed
    | c :: rest =>
        if c = ' ' ∨ c = '\t' then jsTrim (String.ofList (c :: rest)) else trimmed

/-- The credential in one header. -/
def headerCredential (headers : Headers) (name : String) (source : CredentialSource) :
    Option ExtractedCredential :=
  let value := clean (headers name)
  if value = "" then none else some ⟨stripBearer value, source⟩

/-- The credential in the list of subprotocols. -/
def protocolCredential (headers : Headers) : Option ExtractedCredential :=
  ((clean (headers "sec-websocket-protocol")).toList.splitOn ',').findSome? fun entry =>
    let candidate := jsTrim (String.ofList entry)
    if startsWith candidate WS_KEY_PREFIX then
      some ⟨jsTrim (String.ofList (candidate.toList.drop WS_KEY_PREFIX.toList.length)), .websocket⟩
    else none

def queryCredential (req : RelayRequest) : Option ExtractedCredential :=
  let value := clean req.queryKey
  if value = "" then none else some ⟨value, .query⟩

def extractCredential (req : RelayRequest) : ExtractedCredential :=
  ((headerCredential req.headers "authorization" .authorization).or <|
    (headerCredential req.headers "x-api-key" .xApiKey).or <|
    (headerCredential req.headers "api-key" .apiKey).or <|
    (headerCredential req.headers "x-goog-api-key" .xGoogApiKey).or <|
    (headerCredential req.headers "mj-api-secret" .mjApiSecret).or <|
    (protocolCredential req.headers).or (queryCredential req)).getD ⟨"", .none⟩

example : extractCredential ⟨fun name => if name = "x-api-key" then some "bearer  sk-1" else none,
    some "sk-2"⟩ = ⟨"sk-1", .xApiKey⟩ := by decide +kernel

end Extraction

section Keys

def KEY_SCHEME : String := "sk"

def KEY_PREFIX_LENGTH : Nat := 8

def MAX_KEY_INPUT : Nat := 512

def MAX_BODY_LENGTH : Nat := 128

def MAX_DIRECTIVES : Nat := 8

/-- The directives in a key. -/
structure KeyDirectives where
  channelId : Option String
  group : Option String
  retry : Option Nat
  tier : Option String
  region : Option String
  flags : List String
deriving DecidableEq, Repr

structure ParsedKey where
  keyPrefix : String
  secret : String
  directives : KeyDirectives
deriving DecidableEq, Repr

def emptyDirectives : KeyDirectives := ⟨none, none, none, none, none, []⟩

/-- The directives that take the next segment as their value. -/
def valueDirectives : List String := ["ch", "channel", "g", "group", "retry", "tier", "region"]

/-- `/^[A-Za-z0-9_]{1,64}$/` -/
def isDirectiveValue (value : String) : Bool :=
  value ≠ "" && value.toList.length ≤ 64 && value.toList.all fun c => c.isAlphanum || c == '_'

/-- A number of retries from zero to ten. -/
def retryOf (value : String) : Option Nat :=
  match stringToNumber value with
  | .finite n => if n.den = 1 ∧ 0 ≤ n ∧ n ≤ 10 then some n.num.toNat else none
  | _ => none

def setDirective (out : KeyDirectives) (name value : String) : KeyDirectives :=
  if name = "ch" ∨ name = "channel" then { out with channelId := some value }
  else if name = "g" ∨ name = "group" then { out with group := some value }
  else if name = "retry" then { out with retry := (retryOf value).or out.retry }
  else if name = "tier" then { out with tier := some value }
  else { out with region := some value }

/-- The loop over the segments, with how many directives may still be read. -/
def parseDirectives : Nat → List String → KeyDirectives → KeyDirectives
  | 0, _, out => out
  | _, [], out => out
  | left + 1, segment :: rest, out =>
      let name := jsToLower segment
      if name ∉ valueDirectives then
        parseDirectives left rest
          (if isDirectiveValue name then { out with flags := out.flags ++ [name] } else out)
      else
        match rest with
        | [] => out
        | value :: rest =>
            parseDirectives left rest
              (if isDirectiveValue value then setDirective out name value else out)

/-- Splits a credential, if it is shaped like a key. -/
def parseApiKey (raw : String) : Option ParsedKey :=
  let trimmed := jsTrim raw
  if jsLength trimmed < KEY_SCHEME.length + 1 + KEY_PREFIX_LENGTH + 40 ∨
      MAX_KEY_INPUT < jsLength trimmed then none
  else
    match trimmed.toList.splitOn '-' with
    | scheme :: body :: rest =>
        if String.ofList scheme ≠ KEY_SCHEME ∨ MAX_BODY_LENGTH < body.length ∨
            body.length < KEY_PREFIX_LENGTH + 40 ∨ body.all Char.isAlphanum = false then none
        else some {
          keyPrefix := String.ofList (body.take KEY_PREFIX_LENGTH)
          secret := String.ofList (body.drop KEY_PREFIX_LENGTH)
          directives := parseDirectives MAX_DIRECTIVES (rest.map String.ofList) emptyDirectives }
    | _ => none

/-- The stored verifier of a key, with the pepper and the prefix in it. -/
def digestApiKey (sha256Hex : String → String) (keyPepper keyPrefix secret : String) : String :=
  sha256Hex (keyPepper ++ ":" ++ keyPrefix ++ ":" ++ secret)

end Keys

end Gateway
