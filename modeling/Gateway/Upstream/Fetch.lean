import Gateway.Http.Headers
import Gateway.Upstream.HostLiteral

/-!
Requests to an upstream.

A redirect is followed by hand, so that each hop is checked anew, and each request has an
agent of its own whose lookup function knows the checked addresses only. The agent that
opens the connection is the platform's; what is relied on is that it learns addresses
from its lookup function and from nothing else.
-/

namespace Gateway.Upstream

section Lookup

/-- `family` is zero when any will do. -/
structure LookupOptions where
  family : Nat
  all : Bool

structure LookupAddress where
  address : String
  family : Nat
deriving DecidableEq, Repr

abbrev LookupFunction := String → LookupOptions → Option (List LookupAddress)

/-- `isIP` tells the family of an address. An error answers nothing. -/
def pinnedLookup (isIP : String → Nat) (target : ResolvedUpstream) : LookupFunction :=
  fun hostname options =>
    let allowed := target.addresses.map fun address => ⟨address, isIP address⟩
    let name := dropFinalDot (jsToLower hostname)
    let addresses := allowed.filter fun (entry : LookupAddress) =>
      decide (options.family = 0 ∨ options.family = entry.family)
    if name ≠ target.hostname ∨ addresses = [] then none
    else if options.all then some addresses
    else some (addresses.take 1)

/-- The host of a URL as a lookup is asked for it. -/
def hostText (url : Url) : String := stripBrackets ((url.host.map Host.hostname).getD "")

/-- The host of a URL that needs no lookup. -/
def literalHost (url : Url) : Option String :=
  match url.host with
  | some (.ipv4 address) => some (String.ofList (serializeIpv4 address))
  | some (.ipv6 text) => some (String.ofList text)
  | _ => none

/-- The agent of the platform, with the addresses it may connect to for a URL. -/
structure HttpAgent where
  connections : Url → LookupFunction → List String
  resolves : ∀ url lookup, ∀ address ∈ connections url lookup,
    literalHost url = some address ∨ ∃ hostname options found,
      lookup hostname options = some found ∧ address ∈ found.map LookupAddress.address

end Lookup

section Redirects

inductive RequestBody where
  | none
  | value
  | stream
deriving DecidableEq, Repr

structure RequestInit where
  method : Option String
  headers : Headers
  body : RequestBody

structure Response where
  status : Nat
  headers : Headers

/-- `new URL(location, base)`, as far as it is read before it is checked as a text. -/
structure Located where
  origin : String
  href : String

/-- What the parser of the platform makes of a location relative to a URL, both as texts. -/
abbrev Locate := String → String → Option Located

/-- `url.origin`, of a URL with a host. -/
def originOf (url : Url) : String :=
  url.protocol ++ "//" ++ (url.host.map Host.hostname).getD "" ++
    (url.port.map fun port => ":" ++ toString port).getD ""

/-- The location that is followed. -/
def redirection (response : Response) : Option String :=
  if response.status ∈ [301, 302, 303, 307, 308] then
    (response.headers "location").filter (· ≠ "")
  else none

def contentHeaders : List String :=
  ["content-type", "content-length", "content-encoding", "transfer-encoding"]

/-- The request that is sent after a redirect. -/
def redirected (status : Nat) (init : RequestInit) : Except Thrown RequestInit :=
  let method := ((init.method.getD "GET").map Char.toUpper)
  if status = 303 ∧ method ≠ "HEAD" ∨ status ∈ [301, 302] ∧ method = "POST" then
    .ok ⟨some "GET", fun name => if name ∈ contentHeaders then none else init.headers name, .none⟩
  else if init.body = .stream then
    .error (.gateway (malformedUpstreamBody
      "cannot replay a streamed request body across a redirect"))
  else .ok init

/-- One `fetch`: it rejects, perhaps before anything was sent, or is answered. -/
inductive Exchange where
  | failed (error : Thrown) (sent clientAborted aborted : Bool)
  | answered (response : Response)

/-- What the platform does in a call: the answers of the resolver and of the store to each check,
and the exchanges. -/
structure World where
  cancelled : Option Thrown
  resolution : Nat → Resolution
  exchange : Nat → Exchange

/-- A request that was sent: the number of its hop, the text that was checked, and what the
check returned. -/
structure Sent where
  hop : Nat
  text : String
  target : ResolvedUpstream
  init : RequestInit

variable (tables : UrlTables) (locate : Locate) (config : UpstreamConfig) (world : World)

/-- The next hop of a redirect, with `assertRedirectAllowed`. -/
def nextHop (status : Nat) (location : String) (sent : Sent) : Except Thrown Sent :=
  match locate location sent.text with
  | none => .error .fault
  | some located =>
      if located.origin ≠ originOf sent.target.url then
        .error (.gateway (ssrfBlocked "cross-origin upstream redirects are disabled"))
      else
        (redirected status sent.init).bind fun init =>
          (assertUpstreamUrlAllowed tables config (world.resolution (sent.hop + 1))
            located.href).1.map fun target => ⟨sent.hop + 1, located.href, target, init⟩

/-- What a rejected `fetch` is reported as. -/
def fetchFailure (error : Thrown) (clientAborted aborted : Bool) : Thrown :=
  if clientAborted then error
  else if aborted then .gateway (upstreamTimeout "upstream headers timed out")
  else error

/-- The loop over the hops, with the number of redirects that are left. -/
def follow (left : Nat) (sent : Sent) : List Sent × Except Thrown Response :=
  match world.exchange sent.hop with
  | .failed error wasSent clientAborted aborted =>
      (if wasSent then [sent] else [], .error (fetchFailure error clientAborted aborted))
  | .answered response =>
      match redirection response, left with
      | none, _ => ([sent], .ok response)
      | some _, 0 =>
          ([sent], .error (.gateway (malformedUpstreamBody "too many upstream redirects")))
      | some location, left + 1 =>
          match nextHop tables locate config world response.status location sent with
          | .error e => ([sent], .error e)
          | .ok next => (sent :: (follow left next).1, (follow left next).2)

def upstreamFetch (rawUrl : String) (init : RequestInit) (maxRedirects : Nat) :
    List Sent × Except Thrown Response :=
  match world.cancelled with
  | some reason => ([], .error reason)
  | none =>
      match (assertUpstreamUrlAllowed tables config (world.resolution 0) rawUrl).1 with
      | .error e => ([], .error e)
      | .ok target => follow tables locate config world maxRedirects ⟨0, rawUrl, target, init⟩

end Redirects

end Gateway.Upstream
