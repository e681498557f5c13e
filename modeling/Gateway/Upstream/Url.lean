import Gateway.Util.JsonText

/-!
The URL parser, as far as it reads a host.

Controls and spaces around the text are stripped, tabs and newlines within it are
removed, a backslash is a slash, and any number of slashes begins the authority. A
host that ends in a number is an IPv4 address, in any of the forms that numbers and
their parts may have.
-/

namespace Gateway.Upstream

section Numbers

/-- A part of an address: hexadecimal after `0x`, octal after a zero, and decimal otherwise. -/
def parseIpv4Number (part : List Char) : Option Nat :=
  let (radix, digits) :=
    if (part.take 2).map Char.toLower = ['0', 'x'] then (16, part.drop 2)
    else if 2 ≤ part.length ∧ part.head? = some '0' then (8, part.drop 1)
    else (10, part)
  if part = [] then none
  else
    match digits.mapM hexValue with
    | none => none
    | some values =>
        if values.all (· < radix) then some (values.foldl (fun n d => radix * n + d) 0) else none

/-- The parts of a host; an empty one at the end is left out. -/
def hostParts (domain : List Char) : List (List Char) :=
  let parts := domain.splitOn '.'
  if parts.getLast? = some [] ∧ 1 < parts.length then parts.dropLast else parts

def endsInNumber (domain : List Char) : Bool :=
  match (hostParts domain).getLast? with
  | none | some [] => false
  | some last => last.all Char.isDigit || (parseIpv4Number last).isSome

/-- The last number stands for all the bytes that are left. -/
def parseIpv4Host (domain : List Char) : Option Nat :=
  let parts := hostParts domain
  if 4 < parts.length then none
  else
    match parts.mapM parseIpv4Number with
    | none => none
    | some numbers =>
        let last := numbers.getLastD 0
        if numbers.dropLast.any (255 < ·) then none
        else if 256 ^ (5 - numbers.length) ≤ last then none
        else some (last +
          (numbers.dropLast.zipIdx.map fun (number, i) => number * 256 ^ (3 - i)).sum)

def ipv4Bytes (n : Nat) : List Nat :=
  [n / 256 ^ 3 % 256, n / 256 ^ 2 % 256, n / 256 % 256, n % 256]

def serializeIpv4 (n : Nat) : List Char :=
  ['.'].intercalate ((ipv4Bytes n).map (Nat.toDigits 10))

end Numbers

section Hosts

/-- What the parser leaves to tables and to grammars of their own. -/
structure UrlTables where
  /-- whether a URL of a scheme other than `http` and `https` is parsed -/
  otherParses : List Char → Bool
  /-- percent decoding, and the mapping of a domain to ASCII -/
  domainToAscii : List Char → Option (List Char)
  /-- the text of an IPv6 address that is read between brackets -/
  ipv6 : List Char → Option (List Char)

inductive Host where
  | domain (text : List Char)
  | ipv4 (address : Nat)
  | ipv6 (text : List Char)
deriving DecidableEq, Repr

def Host.hostname : Host → String
  | .domain text => String.ofList text
  | .ipv4 address => String.ofList (serializeIpv4 address)
  | .ipv6 text => String.ofList ('[' :: text ++ [']'])

def isForbiddenDomainChar (c : Char) : Bool :=
  c.val.toNat ≤ 0x20 || c.val.toNat == 0x7F || "#/:<>?@[\\]^|%".toList.contains c

def parseHost (tables : UrlTables) (text : List Char) : Option Host :=
  if text.head? = some '[' then
    if text.getLast? = some ']' then (tables.ipv6 (text.drop 1).dropLast).map .ipv6 else none
  else
    match tables.domainToAscii text with
    | none => none
    | some ascii =>
        if ascii = [] ∨ ascii.any isForbiddenDomainChar = true then none
        else if endsInNumber ascii then (parseIpv4Host ascii).map .ipv4
        else some (.domain ascii)

end Hosts

section Cutting

def isC0OrSpace (c : Char) : Bool := c.val.toNat ≤ 0x20

def isTabOrNewline (c : Char) : Bool := c == '\t' || c == '\n' || c == '\r'

def isSlash (c : Char) : Bool := c == '/' || c == '\\'

/-- A character after the authority of a URL. -/
def endsAuthority (c : Char) : Bool := isSlash c || c == '?' || c == '#'

def strip (text : List Char) : List Char :=
  ((text.dropWhile isC0OrSpace).reverse.dropWhile isC0OrSpace).reverse

def isSchemeChar (c : Char) : Bool := c.isAlphanum || c == '+' || c == '-' || c == '.'

/-- The scheme, and what follows its colon. -/
def cutScheme (text : List Char) : Option (List Char × List Char) :=
  let scheme := text.takeWhile isSchemeChar
  match text.dropWhile isSchemeChar with
  | ':' :: rest => if scheme.head?.any Char.isAlpha then some (scheme, rest) else none
  | _ => none

/-- What stands after the last occurrence of a character. -/
def afterLast (mark : Char) (text : List Char) : List Char :=
  (text.reverse.takeWhile (· ≠ mark)).reverse

/-- What stands before the last `@`, if there is one. -/
def userinfo (authority : List Char) : List Char :=
  (authority.reverse.dropWhile (· ≠ '@')).tail.reverse

/-- The host, and the port after a colon that stands in no brackets. -/
def cutPort : (inside : Bool) → List Char → List Char × Option (List Char)
  | _, [] => ([], none)
  | inside, c :: rest =>
      if c = ':' ∧ inside = false then ([], some rest)
      else
        let inside := if c = '[' then true else if c = ']' then false else inside
        let (host, port) := cutPort inside rest
        (c :: host, port)

/-- The port, unless it is the one of the scheme. -/
def parsePort (scheme : List Char) (text : List Char) : Option (Option Nat) :=
  let port := text.foldl (fun n c => 10 * n + (c.toNat - '0'.toNat)) 0
  if text = [] then some none
  else if text.all Char.isDigit = false ∨ 65535 < port then none
  else if port = (if scheme = "https".toList then 443 else 80) then some none
  else some (some port)

end Cutting

/-- A parsed URL, as far as its host is called. The names and the password are without their
percent encoding, which leaves nothing empty that is not. -/
structure Url where
  protocol : String
  username : List Char
  password : List Char
  host : Option Host
  port : Option Nat
deriving DecidableEq, Repr

section Parsing

/-- The authority of a URL, after any number of slashes. -/
def authorityOf (rest : List Char) : List Char :=
  (rest.dropWhile isSlash).takeWhile (!endsAuthority ·)

def parseSpecial (tables : UrlTables) (scheme rest : List Char) : Option Url :=
  let authority := authorityOf rest
  let (hostText, portText) := cutPort false (afterLast '@' authority)
  if hostText = [] then none
  else
    match parseHost tables hostText, parsePort scheme (portText.getD []) with
    | some host, some port =>
        some {
          protocol := String.ofList (scheme ++ [':'])
          username := (userinfo authority).takeWhile (· ≠ ':')
          password := ((userinfo authority).dropWhile (· ≠ ':')).tail
          host := some host
          port := port }
    | _, _ => none

/-- `new URL(raw)` -/
def parseUrl (tables : UrlTables) (raw : String) : Option Url :=
  let text := (strip raw.toList).filter (!isTabOrNewline ·)
  match cutScheme text with
  | none => none
  | some (scheme, rest) =>
      let scheme := scheme.map Char.toLower
      if scheme = "http".toList ∨ scheme = "https".toList then parseSpecial tables scheme rest
      else if tables.otherParses text then
        some ⟨String.ofList (scheme ++ [':']), [], [], none, none⟩
      else none

end Parsing

end Gateway.Upstream
