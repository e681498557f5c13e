import Gateway.Util.Text

/-!
The address of a client.

Every proxy appends to `X-Forwarded-For`, so the entries that can be trusted are
at the end of the list.
-/

namespace Gateway

/-- The headers of a request: a lower-case name and the joined value under it. -/
abbrev Headers := String → Option String

def isAddressChar (c : Char) : Bool :=
  c.isDigit || ('a' ≤ c && c ≤ 'f') || c == ':' || c == '.'

def normalizeIp (value : String) : String :=
  let ip := (jsToLower (jsTrim value)).toList
  let ip :=
    if ip.head? = some '[' then
      if ']' ∈ ip then ip.tail.takeWhile (· ≠ ']') else ip
    else if ip.count ':' = 1 then ip.takeWhile (· ≠ ':')
    else ip
  let ip := if "::ffff:".toList.isPrefixOf ip then ip.drop 7 else ip
  if ip ≠ [] ∧ ip.all isAddressChar = true then String.ofList ip else ""

def getClientIp (trustedHops : Nat) (headers : Headers) : String :=
  let parts := (((headers "x-forwarded-for").filter (· ≠ "")).elim []
    fun xff => (xff.toList.splitOn ',').map fun part => normalizeIp (jsTrim (String.ofList part))).filter
      (· ≠ "")
  if parts ≠ [] then parts.getD (parts.length - max 1 trustedHops) ""
  else ((headers "x-real-ip").or (headers "cf-connecting-ip")).elim "" normalizeIp

end Gateway
