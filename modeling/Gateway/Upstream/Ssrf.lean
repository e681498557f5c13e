import Gateway.Auth.Cidr
import Gateway.Http.Errors
import Gateway.Redis.Keys
import Gateway.Upstream.Url

/-!
The guard of outbound requests: which addresses are not publicly routable, which
host texts are ambiguous, and which URLs may be called.
-/

namespace Gateway.Upstream

section Ranges

def blockedV4Cidrs : List String :=
  ["0.0.0.0/8", "10.0.0.0/8", "100.64.0.0/10", "127.0.0.0/8", "169.254.0.0/16", "172.16.0.0/12",
    "192.0.0.0/24", "192.0.2.0/24", "192.88.99.0/24", "192.168.0.0/16", "198.18.0.0/15",
    "198.51.100.0/24", "203.0.113.0/24", "224.0.0.0/4", "240.0.0.0/4"]

def blockedV6Cidrs : List String :=
  ["::/128", "::1/128", "64:ff9b::/96", "100::/64", "2001:db8::/32", "2002::/16", "fc00::/7",
    "fe80::/10", "ff00::/8"]

/-- An IPv6 address that is not mapped from IPv4 has to be a global unicast one. -/
def isBlockedAddress (ip : String) : Bool :=
  match ipToBytes ip with
  | none => true
  | some bytes =>
      if bytes.length = 16 ∧ matchesAnyCidr ["2000::/3"] ip = false then true
      else if bytes.length = 16 ∧ matchesAnyCidr ["2001::/23", "3fff::/20"] ip = true then true
      else matchesAnyCidr (if bytes.length = 4 then blockedV4Cidrs else blockedV6Cidrs) ip

example : isBlockedAddress "::ffff:127.0.0.1" = true := by decide +kernel

end Ranges

section Literals

/-- `/^[0-9]+$/` or `/^0x[0-9a-f]+$/i` -/
def isNumericLabel (label : List Char) : Bool :=
  (label ≠ [] && label.all Char.isDigit) ||
    ((label.take 2).map Char.toLower = ['0', 'x'] && 2 < label.length &&
      (label.drop 2).all fun c => (hexValue c).isSome)

/-- A dotted-quad label with no leading zeros: the only form that is accepted. -/
def isPlainV4Label (label : List Char) : Bool :=
  label = ['0'] ||
    (label ≠ [] && label.length ≤ 3 && label.all Char.isDigit && label.head? ≠ some '0')

/-- Whether the host is an attempt at an address literal. -/
def looksLikeAddressLiteral (hostname : String) : Bool :=
  hostname.toList.contains ':' || isNumericLabel ((hostname.toList.splitOn '.').getLastD [])

/-- What stands before the last occurrence of a character, if there is one. -/
def beforeLast (mark : Char) (text : List Char) : List Char :=
  if text.contains mark then (text.reverse.dropWhile (· ≠ mark)).tail.reverse else text

/-- What stands after `scheme://` at the very start, before the first `/`, `?` or `#`. -/
def matchAuthority (rawUrl : List Char) : Option (List Char) :=
  match cutScheme rawUrl with
  | some (_, '/' :: '/' :: rest) => some (rest.takeWhile fun c => !"/?#".toList.contains c)
  | _ => none

/-- Whether the host, as written, means something different after parsing. -/
def hasAmbiguousHostEncoding (rawUrl : String) : Bool :=
  match matchAuthority rawUrl.toList with
  | none => false
  | some authority =>
      let authority := afterLast '@' authority
      let labels := (beforeLast ':' authority).splitOn '.'
      -- bracketed IPv6 has no octal ambiguity
      if authority.head? = some '[' then false
      else if beforeLast ':' authority = [] then false
      else if isNumericLabel (labels.getLastD []) = false then false
      else if labels.length = 4 ∧ labels.all isPlainV4Label then false
      else true

end Literals

section Guard

structure UpstreamConfig where
  allowPlaintextUpstream : Bool
  upstreamAllowedPorts : List Nat
  upstreamDomainDenylist : List String
  upstreamDomainAllowlist : List String
  /-- the setting is read without numbers that are not positive -/
  positive : ∀ port ∈ upstreamAllowedPorts, 0 < port

structure ResolvedUpstream where
  url : Url
  hostname : String
  addresses : List String
deriving DecidableEq, Repr

/-- The outcome of a resolution, as it is cached; what is not an array has no addresses. -/
structure Verdict where
  ok : Bool
  addresses : Option (List String)
deriving DecidableEq, Repr

/-- What the coordination store and the resolver answer. -/
structure Resolution where
  cached : String → Option Verdict
  resolver : String → Except Thrown (List String)

/-- Names that resolve inside a cloud or container network. -/
def blockedSuffixes : List String :=
  [".internal", ".local", ".localhost", ".home.arpa", ".lan", ".localdomain"]

def blockedHosts : List String :=
  ["localhost", "metadata", "metadata.google.internal", "instance-data"]

def defaultAllowedPorts : List Nat := [80, 443, 8080, 8443]

def stripBrackets (hostname : String) : String :=
  if hostname.toList.head? = some '[' ∧ hostname.toList.getLast? = some ']' then
    String.ofList (hostname.toList.drop 1).dropLast
  else hostname

/-- `s.endsWith(tail)` -/
def endsWith (s tail : String) : Bool := tail.toList.isSuffixOf s.toList

def matchesDomain (hostname pattern : String) : Bool :=
  let host := jsToLower hostname
  let rule := jsToLower (jsTrim pattern)
  if rule = "" then false
  else if startsWith rule "*." then endsWith host (String.ofList (rule.toList.drop 1))
  else host = rule || endsWith host ("." ++ rule)

/-- `s.replace(/\.$/, "")` -/
def dropFinalDot (s : String) : String :=
  if s.toList.getLast? = some '.' then String.ofList s.toList.dropLast else s

def hostnameOf (url : Url) : String :=
  dropFinalDot (jsToLower (stripBrackets ((url.host.map Host.hostname).getD "")))

def portOf (url : Url) : Nat :=
  url.port.getD (if jsToLower url.protocol = "https:" then 443 else 80)

def UpstreamConfig.allowedPorts (config : UpstreamConfig) : List Nat :=
  if config.upstreamAllowedPorts = [] then defaultAllowedPorts else config.upstreamAllowedPorts

/-- The checks of a parsed URL in their order, each with the reason of the refusal. -/
def urlChecks (config : UpstreamConfig) (url : Url) : List (Bool × String) :=
  let scheme := jsToLower url.protocol
  let hostname := hostnameOf url
  [(decide (scheme ≠ "https:" ∧ scheme ≠ "http:"), "unsupported upstream scheme " ++ scheme),
    (decide (scheme = "http:" ∧ config.allowPlaintextUpstream = false),
      "plaintext upstream requests are disabled"),
    (decide (url.username ≠ [] ∨ url.password ≠ []), "upstream url must not embed credentials"),
    (decide (hostname = ""), "upstream url has no host"),
    (decide (portOf url ∉ config.allowedPorts),
      "upstream port " ++ toString (portOf url) ++ " is not allowed"),
    (decide (hostname ∈ blockedHosts), "upstream host " ++ hostname ++ " is not routable")] ++
  blockedSuffixes.map (fun suffix =>
    (endsWith hostname suffix, "upstream host " ++ hostname ++ " is internal")) ++
  config.upstreamDomainDenylist.map (fun pattern =>
    (matchesDomain hostname pattern, "upstream host " ++ hostname ++ " is denied")) ++
  [(decide (config.upstreamDomainAllowlist ≠ [] ∧
      config.upstreamDomainAllowlist.any (matchesDomain hostname) = false),
    "upstream host " ++ hostname ++ " is not on the allowlist")]

def refuse (reason : String) : Except Thrown ResolvedUpstream :=
  .error (.gateway (ssrfBlocked reason))

/-- The addresses of a name, and the verdict that is cached under it. -/
def resolveName (env : Resolution) (url : Url) (hostname : String) :
    Except Thrown ResolvedUpstream × Option Verdict :=
  match env.cached (ssrfVerdictKey hostname) with
  | some ⟨true, some (first :: rest)⟩ =>
      if (first :: rest).any isBlockedAddress then
        (refuse "upstream address is not publicly routable", none)
      else (.ok ⟨url, hostname, first :: rest⟩, none)
  | some _ => (refuse "upstream address is not publicly routable", none)
  | none =>
      match env.resolver hostname with
      | .error thrown => (.error thrown, none)
      | .ok addresses =>
          if addresses = [] then
            (refuse ("upstream host " ++ hostname ++ " could not be resolved"), none)
          else if addresses.any isBlockedAddress then
            (refuse "upstream host resolves to a non-routable address", some ⟨false, some []⟩)
          else (.ok ⟨url, hostname, addresses⟩, some ⟨true, some addresses⟩)

/-- What a request to the URL is resolved to, and the verdict that is cached. -/
def assertUpstreamUrlAllowed (tables : UrlTables) (config : UpstreamConfig) (env : Resolution)
    (rawUrl : String) : Except Thrown ResolvedUpstream × Option Verdict :=
  if hasAmbiguousHostEncoding rawUrl then
    (refuse "upstream host uses an ambiguous address encoding", none)
  else
    match parseUrl tables rawUrl with
    | none => (refuse "upstream url is not parseable", none)
    | some url =>
        match (urlChecks config url).find? Prod.fst with
        | some (_, reason) => (refuse reason, none)
        | none =>
            if looksLikeAddressLiteral (hostnameOf url) then
              if ipToBytes (hostnameOf url) = none then
                (refuse "upstream host is a malformed address literal", none)
              else if isBlockedAddress (hostnameOf url) then
                (refuse "upstream address is not publicly routable", none)
              else (.ok ⟨url, hostnameOf url, [hostnameOf url]⟩, none)
            else resolveName env url (hostnameOf url)

end Guard

end Gateway.Upstream
